import EpsCloud.Seeding.Main

/-!
# Seeding twice

The script is meant to be safe to run more than once: it only ever adds, and with the
fixed seed a second run is meant to give the same history.  But an activity that the
first run left undone on a day has no entry, so the second run draws for it again, and
as the generator starts anew while fewer places draw from it, with other numbers.

* `extends_seeded`: every run only adds.
* `seedsOnce_iff`: a second run on the same day leaves the tables as they are exactly
  when the first numbers of the generator pass by the entries that the first run left
  out, each in turn.
-/

namespace EpsCloud

section Runs

variable {γ : Type} {rng : Rng γ} {zone : Zone} {clock : Clock} {s : Install}

/-- The caches are in none of the tables. -/
theorem tables_rebuildCaches (clock : Clock) (rows : Definitions) (s : Install) :
    (rebuildCaches clock rows s).tables = s.tables := by
  rw [rebuildCaches]
  have hstreaks : ∀ (l : List NamedStreak) (s : Install) (grace : Bool),
      (l.foldl (fun s row => { s with db := recomputeStreakState s.db row.id clock grace })
        s).tables = s.tables := by
    intro l
    induction l with
    | nil => exact fun _ _ => rfl
    | cons row l ih => exact fun s grace => ih _ grace
  have htrackers : ∀ (l : List Tracker) (s : Install),
      (l.foldl (fun s row => { s with db := recomputeTrackerState s.db row.id clock }) s).tables =
        s.tables := by
    intro l
    induction l with
    | nil => exact fun _ => rfl
    | cons row l ih => exact fun s => ih _
  exact (htrackers _ _).trans (hstreaks _ _ _)

/-- A run of the filling only adds. -/
theorem extends_run {l : List Place} {s s' : Install} {g g' : γ}
    (h : (seedFilling rng zone clock).run l s g = .ok (s', g')) : Extends s.tables s'.tables := by
  refine Filling.run_keeps (R := fun s t => Extends s.tables t.tables) _ (fun s => ?_) ?_ ?_ h
  · exact Extends.refl s.tables
  · intro s t u hst htu
    exact hst.trans htu
  · intro v _ write hwrite s hopen
    exact (written_of_writes hwrite s).extends hopen

theorem seeded_of_ok {s' : Install} (h : seedMain rng zone clock s = .ok s') :
    seeded rng zone clock s = s' := by
  rw [seeded, h]

theorem seeded_of_error {e : Failure} (h : seedMain rng zone clock s = .error e) :
    seeded rng zone clock s = s := by
  rw [seeded, h]

/-- **Every run only adds.** -/
theorem extends_seeded (rng : Rng γ) (zone : Zone) (clock : Clock) (s : Install) :
    Extends s.tables (seeded rng zone clock s).tables := by
  rcases hmain : seedMain rng zone clock s with e | s'
  · rw [seeded_of_error hmain]
    exact Extends.refl _
  · obtain ⟨-, t, g, hrun, rfl⟩ := run_of_seedMain hmain
    rw [seeded_of_ok hmain, tables_rebuildCaches]
    exact (extends_seedDefinitions s).trans (extends_run hrun)

end Runs

/-! ## The condition -/

/-- The run comes to its end: its days exist, and the draws of its open places do not raise. -/
def Seedable (today : Date) (s : Install) : Prop :=
  WindowExists today ∧
    ∀ v ∈ places (seedDefinitions s).1 today, v.key.Taken s.tables ∨ v.Drawable

/-- The definition rows take no place. -/
theorem taken_seedDefinitions (s : Install) (key : PlaceKey) :
    key.Taken (seedDefinitions s).2.tables ↔ key.Taken s.tables := by
  cases key <;> exact Iff.rfl

section Twice

variable {γ : Type} {rng : Rng γ} {zone : Zone} {today : Date} {s : Install}

/-- **A run succeeds** if its open places can be filled. -/
theorem exists_run (rng : Rng γ) (zone : Zone) (hseed : Seedable today s) (now : Moment) :
    ∃ p, (seedFilling rng zone ⟨today, now⟩).run (places (seedDefinitions s).1 today)
      (seedDefinitions s).2 rng.start = .ok p := by
  have hlaw := lawful_places rng zone ⟨today, now⟩ (distinct_seedDefinitions s) today
  refine hlaw.run_eq_ok_iff.mpr fun v hv => ?_
  refine (hseed.2 v hv).imp (fun htaken => ?_) sound_iff.mpr
  exact (taken_seedDefinitions s v.key).mpr htaken

theorem seeded_of_not_seedable (rng : Rng γ) (zone : Zone) (now : Moment)
    (hnot : ¬ Seedable today s) : seeded rng zone ⟨today, now⟩ s = s := by
  rcases hmain : seedMain rng zone ⟨today, now⟩ s with e | s'
  · exact seeded_of_error hmain
  · obtain ⟨hwindow, t, g, hrun, -⟩ := run_of_seedMain hmain
    have hlaw := lawful_places rng zone ⟨today, now⟩ (distinct_seedDefinitions s) today
    refine absurd ⟨hwindow, fun v hv => ?_⟩ hnot
    refine (hlaw.run_eq_ok_iff.mp ⟨(t, g), hrun⟩ v hv).imp (fun htaken => ?_) sound_iff.mp
    exact (taken_seedDefinitions s v.key).mp htaken

/-- What a run leaves. -/
theorem tables_seeded {now : Moment} (hwindow : WindowExists today) {s' : Install} {g : γ}
    (hrun : (seedFilling rng zone ⟨today, now⟩).run (places (seedDefinitions s).1 today)
      (seedDefinitions s).2 rng.start = .ok (s', g)) :
    (seeded rng zone ⟨today, now⟩ s).tables = s'.tables := by
  have hmain := seedMain_eq rng zone ⟨today, now⟩ s hwindow
  rw [hrun] at hmain
  rw [seeded_of_ok hmain, tables_rebuildCaches]

theorem extends_definitions_seeded (rng : Rng γ) (zone : Zone) (hseed : Seedable today s)
    (now : Moment) :
    Extends (seedDefinitions s).2.tables (seeded rng zone ⟨today, now⟩ s).tables := by
  obtain ⟨⟨s', g⟩, hrun⟩ := exists_run rng zone hseed now
  rw [tables_seeded hseed.1 hrun]
  exact extends_run hrun

/-- After a run the definition rows are found as the run found or made them. -/
theorem seedDefinitions_seeded (rng : Rng γ) (zone : Zone) (hseed : Seedable today s)
    (now : Moment) : seedDefinitions (seeded rng zone ⟨today, now⟩ s) =
      ((seedDefinitions s).1, seeded rng zone ⟨today, now⟩ s) := by
  have hextends := extends_definitions_seeded rng zone hseed now
  exact seedDefinitions_again hextends.streaks hextends.trackers hextends.metrics

/-- After a run that came to its end, another one does. -/
theorem seedable_seeded (rng : Rng γ) (zone : Zone) (hseed : Seedable today s) (now : Moment) :
    Seedable today (seeded rng zone ⟨today, now⟩ s) := by
  refine ⟨hseed.1, fun v hv => ?_⟩
  rw [seedDefinitions_seeded rng zone hseed now] at hv
  exact (hseed.2 v hv).imp_left (extends_seeded rng zone ⟨today, now⟩ s).taken

/-- The entries that a run leaves out, if it comes to its end. -/
def leftOut (rng : Rng γ) (zone : Zone) (clock : Clock) (s : Install) : List Place :=
  (seedFilling rng zone clock).passedBy s (places (seedDefinitions s).1 clock.today) rng.start

/-- An open place of a tracker is passed by unless the next number is below its chance. -/
theorem passedBy_tracker {clock : Clock} {day : Date} {trackerId : ℕ} {chance : ℚ}
    (hopen : ¬ (PlaceKey.trackerEvents (day, trackerId)).Taken s.tables) (l : List Place) (g : γ) :
    (seedFilling rng zone clock).passedBy s (.tracker day trackerId chance :: l) g =
      if rng.number g < chance then (seedFilling rng zone clock).passedBy s l (rng.next g)
      else
        .tracker day trackerId chance ::
          (seedFilling rng zone clock).passedBy s l (rng.next g) := by
  have hdraw : (seedFilling rng zone clock).draw (.tracker day trackerId chance) g =
      .ok (if rng.number g < chance then some fun s => s.addTrackerEvent (day, trackerId)
        else none, rng.next g) := rfl
  have hfree : ¬ (seedFilling rng zone clock).Taken (.tracker day trackerId chance) s := hopen
  rw [Filling.passedBy, if_neg hfree, hdraw]
  split_ifs <;> rfl

/-- **The second run** changes nothing if and only if the numbers pass by again what the first
one left out. -/
theorem again_iff (hseed : Seedable today s) (now now' : Moment) :
    (seeded rng zone ⟨today, now'⟩ (seeded rng zone ⟨today, now⟩ s)).tables =
        (seeded rng zone ⟨today, now⟩ s).tables ↔
      Filling.PassesBy rng.number rng.next Place.chance (leftOut rng zone ⟨today, now⟩ s)
        rng.start := by
  have hlaw (now : Moment) := lawful_places rng zone ⟨today, now⟩ (distinct_seedDefinitions s) today
  have hfound := seedDefinitions_seeded rng zone hseed now
  have hseed' := seedable_seeded rng zone hseed now
  obtain ⟨⟨s', g⟩, hrun⟩ := exists_run rng zone hseed now
  have htables := tables_seeded hseed.1 hrun
  generalize seeded rng zone ⟨today, now⟩ s = t at hfound hseed' htables ⊢
  obtain ⟨⟨t', g'⟩, hrun'⟩ := exists_run rng zone hseed' now'
  rw [tables_seeded hseed.1 hrun']
  rw [hfound] at hrun'
  -- what the first run leaves out can be told from the state before it
  have hpassed : (seedFilling rng zone ⟨today, now⟩).passedBy (seedDefinitions s).2
      (places (seedDefinitions s).1 today) rng.start = leftOut rng zone ⟨today, now⟩ s :=
    Filling.passedBy_congr (fun v _ => Or.inr (taken_seedDefinitions s v.key)) rng.start
  have hrerun : (∃ u g, (seedFilling rng zone ⟨today, now'⟩).run
      (places (seedDefinitions s).1 today) t rng.start = .ok (u, g) ∧ u.tables = t.tables) ↔
        Filling.PassesBy rng.number rng.next Place.chance (leftOut rng zone ⟨today, now⟩ s)
          rng.start := by
    rw [← hpassed]
    refine (hlaw now).rerun_iff (hlaw now') (fun v _ ⟨_, _, h⟩ => coin_of_none h _)
      Install.tables (fun u u' h v hv => ?_) hrun fun v => ?_
    · show v.key.Taken u'.tables
      rw [← h]
      exact hv
    · show v.key.Taken t.tables ↔ v.key.Taken s'.tables
      rw [htables]
  rw [← hrerun]
  constructor
  · intro h
    exact ⟨t', g', hrun', h⟩
  · rintro ⟨u, g₂, hrun₂, h⟩
    obtain ⟨rfl, -⟩ := Prod.mk.inj (Except.ok.inj (hrun₂.symm.trans hrun'))
    exact h

end Twice

/-- Two runs on one day, each in a process of its own. -/
structure SeedsOnce {γ : Type} (rng : Rng γ) (zone : Zone) (today : Date) (now now' : Moment)
    (s : Install) : Prop where
  /-- The first run only adds. -/
  adds : Extends s.tables (seeded rng zone ⟨today, now⟩ s).tables
  /-- The second run leaves the tables as the first one left them. -/
  again : (seeded rng zone ⟨today, now'⟩ (seeded rng zone ⟨today, now⟩ s)).tables =
    (seeded rng zone ⟨today, now⟩ s).tables

/-- **Seeding twice.**  The first run only adds.  The second one adds nothing more if and only if
the first one did not come to its end, or the chances of the tracker entries it left out are, one by
one, not above the numbers that the generator starts with. -/
theorem seedsOnce_iff {γ : Type} (rng : Rng γ) (zone : Zone) (today : Date) (now now' : Moment)
    (s : Install) :
    SeedsOnce rng zone today now now' s ↔
      ¬ Seedable today s ∨
        Filling.PassesBy rng.number rng.next Place.chance (leftOut rng zone ⟨today, now⟩ s)
          rng.start := by
  have hadds := extends_seeded rng zone ⟨today, now⟩ s
  by_cases hseed : Seedable today s
  · rw [or_iff_right (not_not.mpr hseed), ← again_iff hseed now now']
    exact ⟨fun h => h.again, fun h => ⟨hadds, h⟩⟩
  · refine iff_of_true ⟨hadds, ?_⟩ (Or.inl hseed)
    rw [seeded_of_not_seedable rng zone now hseed, seeded_of_not_seedable rng zone now' hseed]

/-! ## A second run that adds an entry -/

/-- An install with nothing in it. -/
def emptyInstall : Install where
  streaks := .empty _ _
  trackers := .empty _ _
  metrics := .empty _ _
  db := {}
  streaks_eq := rfl
  trackers_eq := rfl
  trackerSeq_eq := rfl
  metrics_eq := rfl

/-- A generator with the lowest values, so that everything is done. -/
def lowest : Rng Unit where
  start := ()
  random _ := (0, ())
  randint low _ _ := (low, ())
  uniform low _ _ := (low, ())
  randrange low _ _ _ := (low, ())

/-- The install without some of its tracker events. -/
def Install.withoutTrackerEvents (s : Install) (keys : List (Date × ℕ)) : Install :=
  { s with db := { s.db with
      trackerEvents := keys.foldl (fun t key => t.erase key) s.db.trackerEvents } }

/-- Three entries of the first two days of the history of 2024-04-24. -/
def gaps : List (Date × ℕ) := [(738944, 1), (738944, 2), (738945, 1)]

/-- An install in which every entry is there. -/
def fullInstall : Install := seeded lowest utcZone ⟨739000, 0⟩ emptyInstall

/-- An install in which these three are not. -/
def gappedInstall : Install := fullInstall.withoutTrackerEvents gaps

/-- The first numbers that `random.Random(7)` gives. -/
def firstNumbers : Rng (List ℚ) where
  start := [2916826238065975 / 2 ^ 53, 1358728566951068 / 2 ^ 53, 5863096500449791 / 2 ^ 53]
  random g := (g.headD 0, g.tail)
  randint low _ g := (low, g)
  uniform low _ g := (low, g)
  randrange low _ _ g := (low, g)

/-- The places of a seeding of a new install. -/
def seededPlaces : List Place := places (seedDefinitions emptyInstall).1 739000

theorem drawable_seededPlaces : ∀ v ∈ seededPlaces, v.Drawable := by
  decide +kernel

theorem filter_seededPlaces :
    seededPlaces.filter (fun v => v.key ∈ gaps.map PlaceKey.trackerEvents) =
      [.tracker 738944 1 (8106479329266893 / 2 ^ 54), .tracker 738944 2 (3152519739159347 / 2 ^ 53),
        .tracker 738945 1 (8106479329266893 / 2 ^ 54)] := by
  decide +kernel

theorem chance_of_tracker_mem {rows : Definitions} {today day : Date} {trackerId : ℕ}
    {chance : ℚ} (h : Place.tracker day trackerId chance ∈ places rows today) :
    chance ∈ seedTrackers.map fun spec => spec.2.2 := by
  have hrisky : Place.tracker day trackerId chance ∈ (places rows today).filter Place.Risky :=
    List.mem_filter.mpr ⟨h, rfl⟩
  rw [filter_risky_places, List.mem_append] at hrisky
  rcases hrisky with hmem | hmem
  · obtain ⟨l, hl, hmem⟩ := List.mem_flatten.mp hmem
    obtain ⟨offset, -, rfl⟩ := List.mem_map.mp hl
    rw [historyOn, List.mem_append, List.mem_append] at hmem
    rcases hmem with (hmem | hmem) | hmem
    · exact absurd hmem (by simp)
    · obtain ⟨p, hp, heq⟩ := List.mem_map.mp hmem
      obtain ⟨-, -, rfl⟩ := Place.tracker.inj heq
      exact List.mem_map_of_mem (List.of_mem_zip hp).2
    · exact absurd hmem (by simp)
  · exact absurd hmem (by simp [seedTasks])

theorem lookup_foldl_erase {κ ρ : Type} [DecidableEq κ] (keys : List κ) (t : Table κ ρ) (k : κ) :
    (keys.foldl (fun t key => t.erase key) t).lookup k = if k ∈ keys then none else t.lookup k := by
  induction keys generalizing t with
  | nil => rfl
  | cons key keys ih =>
    rw [List.foldl_cons, ih]
    by_cases hkey : k = key
    · subst hkey
      rw [AList.lookup_erase, ite_self, if_pos List.mem_cons_self]
    · rw [AList.lookup_erase_ne hkey]
      simp only [List.mem_cons, hkey, false_or]

theorem taken_withoutTrackerEvents (s : Install) (keys : List (Date × ℕ)) (key : PlaceKey) :
    key.Taken (s.withoutTrackerEvents keys).tables ↔
      key ∉ keys.map PlaceKey.trackerEvents ∧ key.Taken s.tables := by
  cases key with
  | trackerEvents key =>
    have hkey : PlaceKey.trackerEvents key ∈ keys.map PlaceKey.trackerEvents ↔ key ∈ keys := by
      simp
    rw [hkey]
    show ((keys.foldl (fun t key => t.erase key) s.db.trackerEvents).lookup key).isSome = true ↔
      key ∉ keys ∧ (s.db.trackerEvents.lookup key).isSome = true
    rw [lookup_foldl_erase]
    by_cases h : key ∈ keys
    · rw [if_pos h]
      exact iff_of_false (by simp) fun h' => h'.1 h
    · rw [if_neg h, and_iff_right h]
  | habitLog | metricLog | dailyNotes | dailyState | tasks | calendarCache =>
    exact (and_iff_right (by simp)).symm

theorem seedable_emptyInstall : Seedable 739000 emptyInstall :=
  ⟨by decide, fun v hv => Or.inr (drawable_seededPlaces v hv)⟩

theorem taken_fullInstall : ∀ v ∈ seededPlaces, v.key.Taken fullInstall.tables := by
  intro v hv
  obtain ⟨⟨s', g⟩, hrun⟩ :=
    exists_run lowest utcZone seedable_emptyInstall 0
  have hlaw := lawful_places lowest utcZone ⟨739000, 0⟩ (distinct_seedDefinitions emptyInstall)
    739000
  rw [fullInstall, tables_seeded seedable_emptyInstall.1 hrun]
  by_contra hopen
  have hmem : v ∈ seededPlaces.filter fun v =>
      ¬ (seedFilling lowest utcZone ⟨739000, 0⟩).Taken v s' :=
    List.mem_filter.mpr ⟨hv, decide_eq_true hopen⟩
  rw [seededPlaces, hlaw.filter_open_run hrun] at hmem
  obtain ⟨g, g', hnone⟩ := Filling.none_of_mem_passedBy hmem
  obtain ⟨day, trackerId, chance, rfl, hle⟩ := exists_tracker_of_none hnone
  have hpos : ∀ c ∈ seedTrackers.map fun spec => spec.2.2, 0 < c := by decide +kernel
  exact absurd hle (not_le.mpr (hpos chance (chance_of_tracker_mem hv)))

theorem seedDefinitions_withoutTrackerEvents {s t : Install}
    (h : Extends (seedDefinitions s).2.tables t.tables) (keys : List (Date × ℕ)) :
    (seedDefinitions (t.withoutTrackerEvents keys)).1 = (seedDefinitions s).1 := by
  have hfound : seedDefinitions (t.withoutTrackerEvents keys) =
      ((seedDefinitions s).1, t.withoutTrackerEvents keys) :=
    seedDefinitions_again h.streaks h.trackers h.metrics
  rw [hfound]

theorem places_gappedInstall :
    places (seedDefinitions gappedInstall).1 739000 = seededPlaces := by
  have hextends : Extends (seedDefinitions emptyInstall).2.tables fullInstall.tables :=
    extends_definitions_seeded lowest utcZone seedable_emptyInstall 0
  rw [gappedInstall, seedDefinitions_withoutTrackerEvents hextends, seededPlaces]

theorem taken_gappedInstall {v : Place} (hv : v ∈ seededPlaces) :
    v.key.Taken gappedInstall.tables ↔ v.key ∉ gaps.map PlaceKey.trackerEvents := by
  rw [gappedInstall, taken_withoutTrackerEvents]
  exact and_iff_left (taken_fullInstall v hv)

theorem leftOut_gapped : leftOut firstNumbers utcZone ⟨739000, 0⟩ gappedInstall =
    [.tracker 738945 1 (8106479329266893 / 2 ^ 54)] := by
  have hopen : ∀ key ∈ gaps, ¬ (PlaceKey.trackerEvents key).Taken gappedInstall.tables := by
    intro key hkey
    rw [gappedInstall, taken_withoutTrackerEvents]
    exact fun h => h.1 (List.mem_map_of_mem hkey)
  have hfilter : seededPlaces.filter (fun v =>
      ¬ (seedFilling firstNumbers utcZone ⟨739000, 0⟩).Taken v gappedInstall) =
        seededPlaces.filter (fun v => v.key ∈ gaps.map PlaceKey.trackerEvents) := by
    refine List.filter_congr fun v hv => decide_eq_decide.mpr ?_
    exact not_iff_comm.mp (taken_gappedInstall hv).symm
  rw [leftOut, places_gappedInstall, ← Filling.passedBy_filter, hfilter, filter_seededPlaces,
    passedBy_tracker (hopen (738944, 1) (by decide)), if_pos (by decide +kernel),
    passedBy_tracker (hopen (738944, 2) (by decide)), if_pos (by decide +kernel),
    passedBy_tracker (hopen (738945, 1) (by decide)), if_neg (by decide +kernel)]
  rfl

/-- **Not every second run changes nothing.**  The first run fills two of the gaps, and leaves the
third, for which it draws a number near `0.65`.  The second one draws `0.32` for it. -/
theorem not_seedsOnce_gapped : ¬ SeedsOnce firstNumbers utcZone 739000 0 0 gappedInstall := by
  intro h
  have hseed : Seedable 739000 gappedInstall := by
    refine ⟨by decide, fun v hv => Or.inr ?_⟩
    rw [places_gappedInstall] at hv
    exact drawable_seededPlaces v hv
  have hpass := (again_iff hseed 0 0).mp h.again
  rw [leftOut_gapped, Filling.passesBy_cons] at hpass
  exact absurd hpass.1 (by decide +kernel)

end EpsCloud
