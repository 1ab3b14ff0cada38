import EpsCloud.Library.Fallible
import EpsCloud.Seeding.Places

/-!
# One run of the seeding

`seed.main`: the definition rows, then the places of the last 56 days, the tasks and
the calendar entries, then the derived caches, in one transaction.

* `seedMain_eq`: where the days of the window exist, a run is a run of the filling
  between two steps that write no entries.
* `lawful_places`: no two places that draw, or may fail, share a key.
-/

namespace EpsCloud

/-! ## The lists -/

/-- `HISTORY_DAYS` -/
def historyDays : ℕ := 56

/-- `range(HISTORY_DAYS, 0, -1)` -/
def historyOffsets : List ℤ := (List.range historyDays).map fun k => (historyDays : ℤ) - k

/-- `NOTES` -/
def seedNotes : List (ℤ × String) :=
  [(-1, "Slow start, better afternoon. The evening walk helped."),
    (-4, "Long day. Got the important thing done and left the rest."),
    (-9, "Good one. Finished early and actually stopped working."),
    (-16, "Travelling most of the day, not much got done and that is fine.")]

/-- `BAD_DAYS` -/
def seedBadDays : List ℤ := [-6, -13, -27]

/-- `TASKS`, with the times as `parse_time` reads them. -/
def seedTaskRows : List SeedTask :=
  [⟨"Return the library books", some (-7), none, none, false, none⟩,
    ⟨"Pay rent", some (-1), none, none, true, none⟩,
    ⟨"Prepare Monday standup notes", some 0, none, none, false, none⟩,
    ⟨"Book the dentist", none, some 0, some (timeAt 9 30 (by decide)), false, none⟩,
    ⟨"Gym session", none, some 0, some (timeAt 18 0 (by decide)), false, none⟩,
    ⟨"Reply to the landlord", some 1, none, none, true, none⟩,
    ⟨"Submit meter reading", some 2, none, none, false, none⟩,
    ⟨"Renew library card", some 3, none, none, false, none⟩,
    ⟨"Order a birthday present", some 5, none, none, false, none⟩,
    ⟨"Back up the laptop", none, some (-1), some (timeAt 20 0 (by decide)), false, some (-1)⟩,
    ⟨"Cancel the unused subscription", some (-3), none, none, false, some (-3)⟩,
    ⟨"Take the bottles out", none, some (-2), none, false, some (-2)⟩,
    ⟨"Fix the squeaky door", none, some (-5), none, false, some (-4)⟩]

/-- `EVENTS`: title, days from today and time.  The lengths are left out. -/
def seedEventRows : List (String × ℤ × TimeOfDay) :=
  [("Team standup", 0, timeAt 9 0 (by decide)),
    ("Lunch with Sam", 0, timeAt 12 30 (by decide)),
    ("Quarterly review", 1, timeAt 14 0 (by decide)),
    ("Football", 2, timeAt 19 0 (by decide)),
    ("Flat viewing", 3, timeAt 17 30 (by decide)),
    ("Team standup", -1, timeAt 9 0 (by decide)),
    ("Dentist", -2, timeAt 11 15 (by decide)),
    ("Team standup", -3, timeAt 9 0 (by decide))]

/-- One day of the history. -/
def historyOn (rows : Definitions) (day : Date) : List Place :=
  rows.streaks.map (fun row => .habit day row.id) ++
    (rows.trackers.zip seedTrackers).map (fun p => .tracker day p.1.id p.2.2.2) ++
    rows.metrics.map (fun row => .metric day row)

/-- A day at a distance from today, and what is made of it. -/
def onDay {α : Type} (today : Date) (offset : ℤ) (f : Date → α) : Except Failure α :=
  (checkedDay (today + offset)).map f

/-- `seed_history`: the last stretch of days, the notes and the bad days. -/
def seedHistory (rows : Definitions) (today : Date) : Except Failure (List Place) := do
  let days ← historyOffsets.mapM fun offset => onDay today (-offset) (historyOn rows)
  let notes ← seedNotes.mapM fun spec => onDay today spec.1 fun day => Place.note day spec.2
  let badDays ← seedBadDays.mapM fun offset => onDay today offset Place.badDay
  return days.flatten ++ notes ++ badDays

/-- `seed_tasks` -/
def seedTasks (today : Date) : List Place := seedTaskRows.map (.task today)

/-- `seed_events` -/
def seedEvents (today : Date) : Except Failure (List Place) :=
  seedEventRows.mapM fun spec => onDay today spec.2.1 fun day => Place.event day spec.1 spec.2.2

/-- The caches are derived, so they are rebuilt. -/
def rebuildCaches (clock : Clock) (rows : Definitions) (s : Install) : Install :=
  let grace := graceEnabled s.db
  let s := rows.streaks.foldl
    (fun s row => { s with db := recomputeStreakState s.db row.id clock grace }) s
  rows.trackers.foldl (fun s row => { s with db := recomputeTrackerState s.db row.id clock }) s

section Main

variable {γ : Type} (rng : Rng γ) (zone : Zone) (clock : Clock)

/-- `main`, in a process of its own. -/
def seedMain (s : Install) : Except Failure Install := do
  let found := seedDefinitions s
  let history ← seedHistory found.1 clock.today
  let events ← seedEvents clock.today
  let p ← (seedFilling rng zone clock).run (history ++ seedTasks clock.today ++ events) found.2
    rng.start
  return rebuildCaches clock found.1 p.1

/-- The install that a run leaves: an exception rolls the session back. -/
def seeded (s : Install) : Install :=
  match seedMain rng zone clock s with
  | .ok s' => s'
  | .error _ => s

end Main

/-! ## The places of a run -/

theorem onDay_eq {α : Type} (today : Date) (offset : ℤ) (f : Date → α) :
    onDay today offset f =
      if DayExists (today + offset) then .ok (f (today + offset)) else .error .raised := by
  rw [onDay, checkedDay]
  split_ifs <;> rfl

/-- The first and the last day that a run computes exist. -/
def WindowExists (today : Date) : Prop := DayExists (today - 56) ∧ DayExists (today + 3)

instance (today : Date) : Decidable (WindowExists today) := inferInstanceAs (Decidable (_ ∧ _))

theorem WindowExists.dayExists {today : Date} (h : WindowExists today) {offset : ℤ}
    (hoffset : -56 ≤ offset ∧ offset ≤ 3) : DayExists (today + offset) := by
  obtain ⟨⟨hlow, -⟩, -, hhigh⟩ := h
  unfold DayExists at *
  constructor <;> lia

/-- The places that the history is made of. -/
def historyPlaces (rows : Definitions) (today : Date) : List Place :=
  (historyOffsets.map fun offset => historyOn rows (today + -offset)).flatten ++
    seedNotes.map (fun spec => .note (today + spec.1) spec.2) ++
    seedBadDays.map (fun offset => .badDay (today + offset))

def eventPlaces (today : Date) : List Place :=
  seedEventRows.map fun spec => .event (today + spec.2.1) spec.1 spec.2.2

/-- The places of a run, in order. -/
def places (rows : Definitions) (today : Date) : List Place :=
  historyPlaces rows today ++ seedTasks today ++ eventPlaces today

theorem mapM_onDay {α β : Type} {today : Date} (hwindow : WindowExists today) {l : List α}
    {offset : α → ℤ} (hl : ∀ a ∈ l, -56 ≤ offset a ∧ offset a ≤ 3) (f : α → Date → β) :
    l.mapM (fun a => onDay today (offset a) (f a)) =
      .ok (l.map fun a => f a (today + offset a)) :=
  Fallible.mapM_eq_ok fun a ha => by rw [onDay_eq, if_pos (hwindow.dayExists (hl a ha))]

theorem seedHistory_eq {today : Date} (hwindow : WindowExists today) (rows : Definitions) :
    seedHistory rows today = .ok (historyPlaces rows today) := by
  rw [seedHistory, mapM_onDay hwindow (by decide) fun _ => historyOn rows,
    mapM_onDay hwindow (by decide) fun (spec : ℤ × String) day => Place.note day spec.2,
    mapM_onDay hwindow (by decide) fun _ => Place.badDay]
  rfl

theorem seedEvents_eq {today : Date} (hwindow : WindowExists today) :
    seedEvents today = .ok (eventPlaces today) :=
  mapM_onDay hwindow (by decide) _

theorem mapM_onDay_eq_error {α β : Type} {today : Date} {l : List α} {offset : α → ℤ} {a : α}
    (ha : a ∈ l) (h : ¬ DayExists (today + offset a)) (f : α → Date → β) :
    l.mapM (fun a => onDay today (offset a) (f a)) = .error .raised := by
  refine Fallible.mapM_eq_error (fun b _ => ?_) ⟨a, ha, by rw [onDay_eq, if_neg h]⟩
  rw [onDay_eq]
  split_ifs
  · exact Or.inr ⟨_, rfl⟩
  · exact Or.inl rfl

section Main

variable {γ : Type} (rng : Rng γ) (zone : Zone) (clock : Clock) (s : Install)

/-- **A run** is a run of the filling. -/
theorem seedMain_eq (hwindow : WindowExists clock.today) :
    seedMain rng zone clock s =
      ((seedFilling rng zone clock).run (places (seedDefinitions s).1 clock.today)
        (seedDefinitions s).2 rng.start).map
          fun p => rebuildCaches clock (seedDefinitions s).1 p.1 := by
  rw [seedMain, seedHistory_eq hwindow, seedEvents_eq hwindow]
  rfl

theorem seedMain_eq_error (hwindow : ¬ WindowExists clock.today) :
    ∃ e, seedMain rng zone clock s = .error e := by
  rw [WindowExists, not_and_or] at hwindow
  rw [seedMain]
  rcases hwindow with hfirst | hlast
  · have hhistory : seedHistory (seedDefinitions s).1 clock.today = .error .raised := by
      have hdays : (historyOffsets.mapM fun offset =>
          onDay clock.today (-offset) (historyOn (seedDefinitions s).1)) = .error .raised :=
        mapM_onDay_eq_error (a := 56) (by decide) hfirst _
      rw [seedHistory, hdays]
      rfl
    rw [hhistory]
    exact ⟨.raised, rfl⟩
  · have hevents : seedEvents clock.today = .error .raised :=
      mapM_onDay_eq_error (a := ("Flat viewing", 3, timeAt 17 30 (by decide))) (by decide) hlast _
    rw [hevents]
    cases seedHistory (seedDefinitions s).1 clock.today with
    | error e => exact ⟨e, rfl⟩
    | ok history => exact ⟨.raised, rfl⟩

variable {rng zone clock s}

/-- What a run that comes to its end has done. -/
theorem run_of_seedMain {t : Install} (h : seedMain rng zone clock s = .ok t) :
    WindowExists clock.today ∧
      ∃ s' g, (seedFilling rng zone clock).run (places (seedDefinitions s).1 clock.today)
        (seedDefinitions s).2 rng.start = .ok (s', g) ∧
          t = rebuildCaches clock (seedDefinitions s).1 s' := by
  by_cases hwindow : WindowExists clock.today
  · rw [seedMain_eq rng zone clock s hwindow] at h
    rcases hrun : (seedFilling rng zone clock).run (places (seedDefinitions s).1 clock.today)
        (seedDefinitions s).2 rng.start with e | ⟨s', g⟩ <;> rw [hrun] at h
    · exact absurd h (by simp [Except.map])
    · exact ⟨hwindow, s', g, rfl, (Except.ok.inj h).symm⟩
  · obtain ⟨e, he⟩ := seedMain_eq_error rng zone clock s hwindow
    exact absurd (he.symm.trans h) (by simp)

end Main

/-! ## Places that draw have keys of their own -/

/-- The place draws from the generator, or its draw may raise. -/
def Place.Risky : Place → Bool
  | .habit .. | .tracker .. | .metric .. | .task .. => true
  | .note .. | .badDay .. | .event .. => false

/-- The day of an entry of the history. -/
def PlaceKey.day? : PlaceKey → Option Date
  | .habitLog key | .trackerEvents key | .metricLog key => some key.1
  | _ => none

theorem day?_of_mem_historyOn {rows : Definitions} {day : Date} {v : Place}
    (hv : v ∈ historyOn rows day) : v.key.day? = some day := by
  rw [historyOn, List.mem_append, List.mem_append, List.mem_map, List.mem_map, List.mem_map] at hv
  rcases hv with (⟨row, -, rfl⟩ | ⟨row, -, rfl⟩) | ⟨row, -, rfl⟩ <;> rfl

/-- The rows that were looked up have different ids, and every line of `TRACKERS` has its row, as
`zip(trackers, TRACKERS, strict=True)` demands. -/
structure Definitions.Distinct (rows : Definitions) : Prop where
  streaks : (rows.streaks.map fun row => row.id).Nodup
  trackers : (rows.trackers.map Tracker.id).Nodup
  metrics : (rows.metrics.map fun row => row.id).Nodup
  zipped : rows.trackers.length = seedTrackers.length

theorem pairwise_names {α : Type} {l : List (String × α)} (h : (l.map Prod.fst).Nodup)
    {ρ : Type} (name : ρ → String) : l.Pairwise fun a b =>
      ∀ r, ¬ (decide (name r = a.1) = true ∧ decide (name r = b.1) = true) := by
  refine (List.pairwise_map.mp h).imp fun hne r hr => ?_
  exact hne ((of_decide_eq_true hr.1).symm.trans (of_decide_eq_true hr.2))

theorem distinct_seedDefinitions (s : Install) : (seedDefinitions s).1.Distinct where
  streaks := Sequenced.nodup_ids_findOrAddAll (by exact fun _ _ => decide_eq_true rfl) s.streaks
    (pairwise_names (by decide) NamedStreak.name)
  trackers := Sequenced.nodup_ids_findOrAddAll (by exact fun _ _ => decide_eq_true rfl) s.trackers
    (pairwise_names (by decide) Tracker.name)
  metrics := Sequenced.nodup_ids_findOrAddAll (by exact fun _ _ => decide_eq_true rfl) s.metrics
    (pairwise_names (by decide) NamedMetric.name)
  zipped := Sequenced.length_findOrAddAll (by exact fun _ _ => decide_eq_true rfl) seedTrackers
    s.trackers

theorem keys_historyOn {rows : Definitions} (hrows : rows.Distinct) (day : Date) :
    (historyOn rows day).map Place.key =
      (rows.streaks.map fun row => row.id).map (fun id => .habitLog (day, id)) ++
        (rows.trackers.map Tracker.id).map (fun id => .trackerEvents (day, id)) ++
        (rows.metrics.map fun row => row.id).map (fun id => .metricLog (day, id)) := by
  have hzip := List.map_fst_zip hrows.zipped.le
  rw [historyOn, List.map_append, List.map_append]
  conv_rhs => rw [← hzip]
  simp only [List.map_map]
  rfl

theorem nodup_keys_historyOn {rows : Definitions} (hrows : rows.Distinct) (day : Date) :
    ((historyOn rows day).map Place.key).Nodup := by
  rw [keys_historyOn hrows, List.nodup_append, List.nodup_append]
  refine ⟨⟨hrows.streaks.map ?_, hrows.trackers.map ?_, ?_⟩, hrows.metrics.map ?_, ?_⟩
  · exact fun _ _ h => (Prod.mk.inj (PlaceKey.habitLog.inj h)).2
  · exact fun _ _ h => (Prod.mk.inj (PlaceKey.trackerEvents.inj h)).2
  · intro a ha b hb
    obtain ⟨_, -, rfl⟩ := List.mem_map.mp ha
    obtain ⟨_, -, rfl⟩ := List.mem_map.mp hb
    exact PlaceKey.noConfusion
  · exact fun _ _ h => (Prod.mk.inj (PlaceKey.metricLog.inj h)).2
  · intro a ha b hb
    obtain ⟨_, -, rfl⟩ := List.mem_map.mp hb
    rcases List.mem_append.mp ha with ha | ha
    · obtain ⟨_, -, rfl⟩ := List.mem_map.mp ha
      exact PlaceKey.noConfusion
    · obtain ⟨_, -, rfl⟩ := List.mem_map.mp ha
      exact PlaceKey.noConfusion

theorem nodup_keys_history {rows : Definitions} (hrows : rows.Distinct) (today : Date) :
    ((historyOffsets.map fun offset => historyOn rows (today + -offset)).flatten.map
      Place.key).Nodup := by
  rw [List.map_flatten, List.map_map, List.nodup_flatten]
  constructor
  · intro keys hkeys
    obtain ⟨offset, -, rfl⟩ := List.mem_map.mp hkeys
    exact nodup_keys_historyOn hrows _
  · have hoffsets : historyOffsets.Nodup := by decide
    refine List.pairwise_map.mpr (hoffsets.imp fun hne => ?_)
    intro key hkey hkey'
    obtain ⟨v, hv, rfl⟩ := List.mem_map.mp hkey
    obtain ⟨w, hw, hvw⟩ := List.mem_map.mp hkey'
    have hday := day?_of_mem_historyOn hv
    rw [← hvw, day?_of_mem_historyOn hw] at hday
    have := Option.some.inj hday
    exact hne (by lia)

theorem risky_of_mem_historyOn {rows : Definitions} {day : Date} {v : Place}
    (hv : v ∈ historyOn rows day) : v.Risky = true := by
  have hday := day?_of_mem_historyOn hv
  cases v with
  | note | badDay | event => exact absurd hday (by simp [Place.key, PlaceKey.day?])
  | habit | tracker | metric | task => rfl

/-- The risky places are the entries of the history and the tasks. -/
theorem filter_risky_places (rows : Definitions) (today : Date) :
    (places rows today).filter Place.Risky =
      (historyOffsets.map fun offset => historyOn rows (today + -offset)).flatten ++
        seedTasks today := by
  have hhistory : ∀ v ∈ (historyOffsets.map fun offset =>
      historyOn rows (today + -offset)).flatten, v.Risky = true := by
    intro v hv
    obtain ⟨l, hl, hv⟩ := List.mem_flatten.mp hv
    obtain ⟨offset, -, rfl⟩ := List.mem_map.mp hl
    exact risky_of_mem_historyOn hv
  have hnotes : (seedNotes.map fun spec => Place.note (today + spec.1) spec.2).filter Place.Risky =
      [] := rfl
  have hbad : (seedBadDays.map fun offset => Place.badDay (today + offset)).filter Place.Risky =
      [] := rfl
  have htasks : (seedTasks today).filter Place.Risky = seedTasks today := rfl
  have hevents : (eventPlaces today).filter Place.Risky = [] := rfl
  simp only [places, historyPlaces, List.filter_append, List.filter_eq_self.mpr hhistory, hnotes,
    hbad, htasks, hevents, List.append_nil]

/-- The keys of the places that draw from the generator or may fail. -/
theorem nodup_keys_risky {rows : Definitions} (hrows : rows.Distinct) (today : Date) :
    (((places rows today).filter Place.Risky).map Place.key).Nodup := by
  have hnames : (seedTaskRows.map fun row => PlaceKey.tasks row.name).Nodup := by decide
  rw [filter_risky_places, List.map_append, List.nodup_append]
  refine ⟨nodup_keys_history hrows today, by rw [seedTasks, List.map_map]; exact hnames, ?_⟩
  intro a ha b hb
  obtain ⟨v, hv, rfl⟩ := List.mem_map.mp ha
  obtain ⟨w, hw, rfl⟩ := List.mem_map.mp hb
  obtain ⟨l, hl, hv⟩ := List.mem_flatten.mp hv
  obtain ⟨offset, -, rfl⟩ := List.mem_map.mp hl
  obtain ⟨row, -, rfl⟩ := List.mem_map.mp hw
  intro heq
  have hday := day?_of_mem_historyOn hv
  rw [heq] at hday
  exact absurd hday (by simp [Place.key, PlaceKey.day?])

section Lawful

variable {γ : Type} {rng : Rng γ} {zone : Zone} {clock : Clock}

theorem steady_of_not_risky {v : Place} (h : ¬ v.Risky = true) :
    (seedFilling rng zone clock).Steady v := by
  cases v with
  | note | badDay | event => exact fun _ => ⟨_, rfl⟩
  | habit | tracker | metric | task => exact absurd rfl h

theorem apart_of_key_ne {v w : Place} (h : v.key ≠ w.key) :
    (seedFilling rng zone clock).Apart v w :=
  fun _ hwrite s => ((written_of_writes hwrite s).taken_iff w.key).trans (or_iff_right h.symm)

theorem risky_eq_of_key_eq {v w : Place} (h : v.key = w.key) : v.Risky = w.Risky := by
  cases v <;> cases w <;> first | rfl | exact absurd h (by simp [Place.key])

/-- **The places of a run** are lawful. -/
theorem lawful_places (rng : Rng γ) (zone : Zone) (clock : Clock) {rows : Definitions}
    (hrows : rows.Distinct) (today : Date) :
    (seedFilling rng zone clock).Lawful (places rows today) where
  unrelated := by
    have hkeys := List.pairwise_filter.mp (List.pairwise_map.mp (nodup_keys_risky hrows today))
    refine hkeys.imp fun {v w} hne => ?_
    by_cases hkey : v.key = w.key
    · have hv : ¬ v.Risky = true := fun hv => hne hv (risky_eq_of_key_eq hkey ▸ hv) hkey
      have hw : ¬ w.Risky = true := risky_eq_of_key_eq hkey ▸ hv
      exact ⟨Or.inl (steady_of_not_risky hv), Or.inl (steady_of_not_risky hw)⟩
    · exact ⟨Or.inr (apart_of_key_ne fun h => hkey h.symm), Or.inr (apart_of_key_ne hkey)⟩
  taken v _ write hwrite s := ((written_of_writes hwrite s).taken_iff v.key).mpr (Or.inl rfl)
  mono v _ write hwrite s _ w hw := ((written_of_writes hwrite s).taken_iff w.key).mpr (Or.inr hw)
  fails v _ hsound g := draw_of_not_drawable (fun h => hsound (sound_iff.mpr h)) g

end Lawful

end EpsCloud
