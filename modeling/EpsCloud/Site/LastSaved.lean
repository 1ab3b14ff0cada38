import EpsCloud.Library.LastWrite
import EpsCloud.Site.References

/-!
# What was saved last

The notes and the preferences are registers: a form that is accepted writes one of them, and
nothing else does, neither the other requests nor the jobs.

* `Saved`: what the settings page and the notes show.
* `SiteAct.save`: what a request means for it; `saved_after`: what it does.
* `last_saved`: each register after any run.
-/

namespace EpsCloud

open LastWrite

/-! ## Registers -/

/-- What the forms for notes and preferences save. -/
structure Saved where
  note : Date → String
  timezone : String
  location : Decimal × Decimal
  graceEnabled : Bool
  fetchTimes : FetchTimes

/-- The note of a day; a day without a row has none. -/
def Database.note (db : Database) (day : Date) : String :=
  ((db.dailyNotes.lookup day).map DailyNote.noteText).getD ""

/-- What is saved, with the defaults of a row of settings that is not there yet. -/
def Site.saved (s : Site) : Saved where
  note := s.db.note
  timezone := (ensure s.db).timezone
  location := ((ensure s.db).weatherLocationLat, (ensure s.db).weatherLocationLon)
  graceEnabled := (ensure s.db).graceEnabled
  fetchTimes := s.fetchTimes

namespace SiteAct

variable (env : SiteEnv)

/-- The text that a request saves as the note of a day. -/
def noteWrite (day : Date) : SiteAct → Option String
  | .saveNote date noteText => if fromisoformat date = some day then some noteText else none
  | _ => none

/-- The zone that a request saves: one that there is. -/
def timezoneWrite : SiteAct → Option String
  | .saveTimezone timezone => if timezone ∈ env.zones then some timezone else none
  | _ => none

/-- The location that a request saves: two decimals, each within its range. -/
def locationWrite : SiteAct → Option (Decimal × Decimal)
  | .saveWeather lat lon => do
    let lat ← (parseCoordinate env.py lat latRange).toOption
    let lon ← (parseCoordinate env.py lon lonRange).toOption
    return (lat, lon)
  | _ => none

/-- The fetch times that a request saves: two texts that are times. -/
def fetchTimesWrite : SiteAct → Option FetchTimes
  | .saveFetchTimes calendar weather => do
    let calendar ← env.py.time calendar
    let weather ← env.py.time weather
    return ⟨calendar, weather⟩
  | _ => none

/-- The request flips streak forgiveness. -/
def flipsGrace : SiteAct → Bool
  | .toggleGrace => true
  | _ => false

/-- What a request means for the registers. -/
def save (act : SiteAct) (saved : Saved) : Saved where
  note day := (act.noteWrite day).getD (saved.note day)
  timezone := (act.timezoneWrite env).getD saved.timezone
  location := (act.locationWrite env).getD saved.location
  graceEnabled := if act.flipsGrace then !saved.graceEnabled else saved.graceEnabled
  fetchTimes := (act.fetchTimesWrite env).getD saved.fetchTimes

end SiteAct

/-! ## What the other handlers leave alone -/

/-- Neither a note nor a preference is different. -/
structure SameSaved (db db' : Database) : Prop where
  notes : db'.dailyNotes = db.dailyNotes
  settings : ensure db' = ensure db

section Same

variable {db db' : Database}

theorem sameSaved_recomputeStreaks (clock : Clock) (grace : Bool) (ids : List ℕ)
    (db : Database) : SameSaved db (recomputeStreaks clock grace ids db) := by
  induction ids generalizing db with
  | nil => exact ⟨rfl, rfl⟩
  | cons k ids ih =>
    have hrest := ih (recomputeStreakState db k clock grace)
    exact ⟨hrest.notes, hrest.settings⟩

theorem sameSaved_of_handleJournal {py : TextParsers} {clock : Clock} {req : JournalRequest}
    (hok : handleJournal py clock db req = .ok db') : SameSaved db db' := by
  cases req with
  | markHabit date streakId mark =>
    obtain ⟨day, passed, -, -, -, rfl⟩ := markHabit_eq_ok.mp hok
    exact ⟨rfl, rfl⟩
  | markTracker date trackerId =>
    obtain ⟨day, -, -, rfl⟩ := markTracker_eq_ok.mp hok
    exact ⟨rfl, rfl⟩
  | saveMetric date metricId value =>
    obtain ⟨day, metric, value, change, -, -, -, -, haudit⟩ := saveMetric_eq_ok.mp hok
    obtain ⟨rows, -, hdb⟩ := bind_eq_ok.mp haudit
    obtain rfl := Except.ok.inj hdb
    exact ⟨rfl, rfl⟩
  | toggleBadDay date =>
    obtain ⟨day, -, rfl⟩ := toggleBadDay_eq_ok.mp hok
    have hsame := sameSaved_recomputeStreaks clock (graceEnabled (badDayEdited clock day db))
      (badDayEdited clock day db).activeStreakIds (badDayEdited clock day db)
    exact ⟨hsame.notes, hsame.settings⟩

theorem sameSaved_of_handleTask {py : TextParsers} {req : TaskRequest}
    (hok : handleTask py req db = .ok db') : SameSaved db db' := by
  have hedit : ∀ {taskId : ℕ} {edit : Task → Except Failure TaskEdit},
      commitEdit req.stamp taskId edit db = .ok db' → SameSaved db db' := by
    intro taskId edit h
    obtain ⟨task, change, -, -, -, rfl⟩ := commitEdit_eq_ok.mp h
    exact ⟨rfl, rfl⟩
  obtain ⟨stamp, act⟩ := req
  cases act with
  | add form =>
    obtain ⟨task, -, -, rfl⟩ := addTask_context hok
    exact ⟨rfl, rfl⟩
  | toggle taskId => exact hedit hok
  | vital taskId => exact hedit hok
  | reschedule taskId form => exact hedit hok
  | keep taskId => exact hedit hok
  | archive taskId => exact hedit hok

theorem sameSaved_rekey (db : Database) (f : Item → Option ℤ → Option ℤ) :
    SameSaved db (db.rekey f) := ⟨rfl, rfl⟩

theorem sameSaved_of_moveItem {item direction : String} {today : Date} {now : Moment}
    (hok : moveItem item direction today now db = .ok db') : SameSaved db db' := by
  obtain ⟨item, key, rfl⟩ := moveItem_eq_ok hok
  rw [setSortOrder_eq_rekey]
  exact sameSaved_rekey db _

theorem sameSaved_of_warms (h : Warms db db') : SameSaved db db' := by
  obtain ⟨cache, rfl⟩ := h.frame
  exact ⟨rfl, rfl⟩

end Same

/-! ## One request -/

namespace Site

variable {s : Site} {env : SiteEnv}

/-- A request that writes no register. -/
theorem saved_of_same {s' : Site} (h : SameSaved s.db s'.db)
    (htimes : s'.fetchTimes = s.fetchTimes) : s'.saved = s.saved := by
  have hnote : s'.db.note = s.db.note := by
    funext day
    rw [Database.note, h.notes, Database.note]
  simp only [saved, hnote, h.settings, htimes]

theorem saved_result {result : Except Failure Site}
    (hok : ∀ s', result = .ok s' → s'.saved = s.saved) : (s.commit result).1.saved = s.saved := by
  cases result with
  | error e => rfl
  | ok s' => exact hok s' rfl

theorem saved_commit {dbNow : Moment} {result : Except Failure Database}
    (hok : ∀ db, result = .ok db → SameSaved s.db db) :
    (s.commit (result.map (s.store dbNow))).1.saved = s.saved := by
  refine saved_result fun s' hs' => ?_
  cases result with
  | error e => cases hs'
  | ok db =>
    cases hs'
    exact saved_of_same (hok db rfl) rfl

/-- A note is written on its day, and on no other. -/
theorem saved_saveNote (dbNow : Moment) (date noteText : String) :
    (s.commit ((EpsCloud.saveNote date noteText s.db).map (s.store dbNow))).1.saved =
      (SiteAct.saveNote date noteText).save env s.saved := by
  cases hday : fromisoformat date with
  | none =>
    have hnote : (SiteAct.saveNote date noteText).save env s.saved = s.saved := by
      simp only [SiteAct.save, SiteAct.noteWrite, hday]
      rfl
    rw [EpsCloud.saveNote, parseDate, hday, hnote]
    rfl
  | some day =>
    rw [EpsCloud.saveNote, parseDate, hday]
    have hnote : ∀ day', Database.note (s.store dbNow { s.db with
        dailyNotes := s.db.dailyNotes.upsert day { noteText := noteText } fun note =>
          { note with noteText := noteText } }).db day' =
        ((SiteAct.saveNote date noteText).noteWrite day').getD (s.db.note day') := by
      intro day'
      simp only [Database.note, Site.store, Table.upsert, SiteAct.noteWrite, hday]
      by_cases hsame : day = day'
      · rw [hsame, AList.lookup_insert, if_pos rfl]
        rfl
      · rw [AList.lookup_insert_ne (Ne.symm hsame), if_neg fun h => hsame (Option.some.inj h)]
        rfl
    exact congrArg (fun note => { s.saved with note := note }) (funext hnote)

theorem saved_saveWeather (dbNow : Moment) (lat lon : String) :
    (s.commit ((EpsCloud.saveWeather env.py lat lon s.db).map (s.store dbNow))).1.saved =
      (SiteAct.saveWeather lat lon).save env s.saved := by
  have hsave : (SiteAct.saveWeather lat lon).save env s.saved = { s.saved with
      location := ((SiteAct.saveWeather lat lon).locationWrite env).getD s.saved.location } := rfl
  rw [hsave, SiteAct.locationWrite, EpsCloud.saveWeather]
  cases parseCoordinate env.py lat latRange with
  | error e => rfl
  | ok lat =>
    cases parseCoordinate env.py lon lonRange with
    | error e => rfl
    | ok lon => rfl

theorem saved_saveTimezone (dbNow : Moment) (timezone : String) :
    (s.commit ((EpsCloud.saveTimezone env.zones timezone s.db).map (s.store dbNow))).1.saved =
      (SiteAct.saveTimezone timezone).save env s.saved := by
  have hsave : (SiteAct.saveTimezone timezone).save env s.saved = { s.saved with
      timezone := ((SiteAct.saveTimezone timezone).timezoneWrite env).getD
        s.saved.timezone } := rfl
  rw [hsave, SiteAct.timezoneWrite, EpsCloud.saveTimezone]
  split_ifs <;> rfl

theorem saved_saveFetchTimes (calendar weather : String) :
    (s.commit (EpsCloud.saveFetchTimes env.py calendar weather s)).1.saved =
      (SiteAct.saveFetchTimes calendar weather).save env s.saved := by
  have hsave : (SiteAct.saveFetchTimes calendar weather).save env s.saved = { s.saved with
      fetchTimes := ((SiteAct.saveFetchTimes calendar weather).fetchTimesWrite env).getD
        s.saved.fetchTimes } := rfl
  rw [hsave, SiteAct.fetchTimesWrite, EpsCloud.saveFetchTimes, parseClockTime, parseClockTime]
  cases env.py.time calendar with
  | none => rfl
  | some calendar =>
    cases env.py.time weather with
    | none => rfl
    | some weather => rfl

/-- **A request does to the registers what it means for them.** -/
theorem saved_after (s : Site) (req : SiteRequest) :
    (s.after env req).saved = req.act.save env s.saved := by
  obtain ⟨today, now, dbNow, act⟩ := req
  cases act with
  | task act => exact saved_commit fun db => sameSaved_of_handleTask
  | deleteTask taskId =>
    refine saved_commit fun db hdb => ?_
    obtain ⟨-, rfl⟩ := deleteTask_eq_ok.mp hdb
    exact ⟨rfl, rfl⟩
  | journal req => exact saved_commit fun db => sameSaved_of_handleJournal
  | saveNote date noteText => exact saved_saveNote dbNow date noteText
  | toggleTracker trackerId =>
    refine saved_commit fun db hdb => ?_
    obtain ⟨-, rfl⟩ := toggleTracker_eq_ok.mp hdb
    exact ⟨rfl, rfl⟩
  | editTracker trackerId thresholdDays visibleOnDays =>
    refine saved_commit fun db hdb => ?_
    obtain ⟨f, rfl, -⟩ := editTracker_eq_ok hdb
    exact ⟨rfl, rfl⟩
  | deleteTracker trackerId =>
    refine saved_commit fun db hdb => ?_
    obtain ⟨-, rfl⟩ := deleteTracker_eq_ok.mp hdb
    exact ⟨rfl, rfl⟩
  | moveItem item direction => exact saved_commit fun db => sameSaved_of_moveItem
  | resetOrder =>
    refine saved_commit fun db hdb => ?_
    rw [← Except.ok.inj hdb, resetOrder_eq_rekey]
    exact sameSaved_rekey s.db _
  | addStreak name description =>
    refine saved_result fun s' hs' => ?_
    obtain ⟨text, rfl⟩ := addStreak_eq_ok hs'
    rfl
  | addTracker name thresholdDays visibleOnDays =>
    refine saved_commit fun db hdb => ?_
    obtain ⟨tracker, -, rfl⟩ := addTracker_eq_ok hdb
    exact ⟨rfl, rfl⟩
  | addMetric name metricType unit =>
    refine saved_result fun s' hs' => ?_
    obtain ⟨type, text, rfl⟩ := addMetric_eq_ok hs'
    rfl
  | openSettings => rfl
  | toggleGrace => rfl
  | saveWeather lat lon => exact saved_saveWeather dbNow lat lon
  | saveTimezone timezone => exact saved_saveTimezone dbNow timezone
  | saveFetchTimes calendar weather => exact saved_saveFetchTimes calendar weather
  | openDashboard call =>
    exact saved_of_same (sameSaved_of_warms (weatherSummary_warms call today s.db)) rfl
  | refreshWeather calls =>
    exact saved_of_same (sameSaved_of_warms (refreshWeather_warms calls today s.db)) rfl
  | cleanupAuditLog => rfl

end Site

/-! ## Runs -/

/-- Each register holds what was written last, or what it started with; forgiveness is flipped
once for each request that does. -/
structure LastSaved (env : SiteEnv) (acts : List SiteAct) (start saved : Saved) : Prop where
  note : ∀ day, saved.note day = lastWrite (SiteAct.noteWrite day) acts (start.note day)
  timezone : saved.timezone = lastWrite (SiteAct.timezoneWrite env) acts start.timezone
  location : saved.location = lastWrite (SiteAct.locationWrite env) acts start.location
  fetchTimes : saved.fetchTimes = lastWrite (SiteAct.fetchTimesWrite env) acts start.fetchTimes
  graceEnabled : saved.graceEnabled =
    if Even (acts.countP SiteAct.flipsGrace) then start.graceEnabled else !start.graceEnabled

namespace LastSaved

variable {env : SiteEnv} {acts : List SiteAct} {start saved : Saved}

theorem nil (env : SiteEnv) (start : Saved) : LastSaved env [] start start :=
  ⟨fun _ => rfl, rfl, rfl, rfl, rfl⟩

/-- One request more. -/
theorem concat (h : LastSaved env acts start saved) (act : SiteAct) :
    LastSaved env (acts ++ [act]) start (act.save env saved) where
  note day := by
    rw [lastWrite_concat, ← h.note day]
    rfl
  timezone := by
    rw [lastWrite_concat, ← h.timezone]
    rfl
  location := by
    rw [lastWrite_concat, ← h.location]
    rfl
  fetchTimes := by
    rw [lastWrite_concat, ← h.fetchTimes]
    rfl
  graceEnabled := by
    rw [SiteAct.save, h.graceEnabled, List.countP_append, List.countP_singleton]
    cases act.flipsGrace with
    | false => rfl
    | true =>
      rw [if_pos rfl, if_pos rfl]
      by_cases heven : Even (acts.countP SiteAct.flipsGrace)
      · rw [if_pos heven, if_neg (Nat.even_add_one.not.mpr (not_not.mpr heven))]
      · rw [if_neg heven, if_pos (Nat.even_add_one.mpr heven)]
        exact Bool.not_not _

end LastSaved

/-- **What was saved last is what is shown.**  After any run of requests and jobs, the note of
each day, the zone, the location and the fetch times are those of the last request that saved
them, and forgiveness has been flipped as often as that was asked. -/
theorem last_saved (env : SiteEnv) (s : Site) (reqs : List SiteRequest) :
    LastSaved env (reqs.map SiteRequest.act) s.saved (reqs.foldl (Site.after env) s).saved := by
  induction reqs using List.reverseRecOn with
  | nil => exact .nil env s.saved
  | append_singleton reqs req ih =>
    rw [List.map_append, List.foldl_append, List.map_singleton, List.foldl_cons, List.foldl_nil,
      Site.saved_after]
    exact ih.concat req.act

end EpsCloud
