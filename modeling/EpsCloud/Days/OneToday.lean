import EpsCloud.Routes.Journal
import EpsCloud.Time.Clock

/-!
# One request, one today

`mark_habit` and `toggle_bad_day` call `current_date()` again for every use of it:
once for the audit and once for each streak that they replay.  Each call reads the
clock, and the zone by way of a cache that the other threads of the process share,
so the request of another thread that saves a zone may take effect at any point.

* `zoneName`: the zone that one call reads, statement by statement, with what other
  threads do in between.
* `ZoneInForce`: the zone in force at a reading, told from the zone that is saved and
  the one that is cached at first, and from what the threads have done since.
* `zoneName_after`: it is the zone that the call returns.
* `markHabitReads_eq_ok`, `toggleBadDayReads_eq_ok`: what a request leaves, for the
  dates that it reads.
* `one_today_iff`: a request uses one date exactly when its readings of the clock
  lie on one local day, each told in the zone in force at that reading; while no
  zone is saved, exactly when the first and the last one do.
-/

namespace EpsCloud

/-! ## Reading the zone -/

/-- The zones of the standard library by name, and the zone of the environment. -/
structure Zones where
  named : String → Option Zone
  tz : Zone

/-- The saved time zone, if there is a settings row, and the zone that the process has cached. -/
structure ZoneState where
  saved : Option String
  cached : Option Zone

/-- What another thread does to them: `save_timezone` commits a name and then forgets the cached
zone, and a `zone_name` that has read a zone caches it. -/
inductive ZoneAct where
  | save (name : String)
  | forget
  | store (zone : Zone)

def ZoneAct.apply (s : ZoneState) : ZoneAct → ZoneState
  | .save name => { s with saved := some name }
  | .forget => { s with cached := none }
  | .store zone => { s with cached := some zone }

/-- The state after what other threads do. -/
def ZoneState.after (s : ZoneState) (acts : List ZoneAct) : ZoneState := acts.foldl ZoneAct.apply s

/-- One call of `current_date()`: what other threads do before each access to the shared zone, the
moment that is read, and the one that a replay with this date is stamped with. -/
structure Reading where
  beforeCheck : List ZoneAct := []
  beforeRead : List ZoneAct := []
  beforeStore : List ZoneAct := []
  beforeReturn : List ZoneAct := []
  now : Moment
  stamp : Moment

/-- `zone_name`: the zone that is returned, and the state afterwards.  The variable is read once
more to return it, and may be `None` again by then. -/
def zoneName (zones : Zones) (s : ZoneState) (r : Reading) : Option Zone × ZoneState :=
  let s := s.after r.beforeCheck
  if s.cached.isSome then
    let s := s.after r.beforeReturn
    (s.cached, s)
  else
    let s := s.after r.beforeRead
    match s.saved.bind zones.named with
    | none => (some zones.tz, s)
    | some zone =>
      let s := ZoneState.after { s.after r.beforeStore with cached := some zone } r.beforeReturn
      (s.cached, s)

/-- `current_date`; a zone `None` is an exception. -/
def readDate (zones : Zones) (s : ZoneState) (r : Reading) : Except Failure (Date × ZoneState) :=
  match (zoneName zones s r).1 with
  | none => .error .raised
  | some zone => .ok (currentDate zone r.now, (zoneName zones s r).2)

/-! ## The two handlers -/

section Handlers

variable (zones : Zones) (s : ZoneState) (readings : ℕ → Reading) (edited : Moment)

/-- `mark_habit`, with the dates that it used. -/
def markHabitReads (date : String) (streakId : ℕ) (mark : String) (db : Database) :
    Except Failure (List Date × Database) := do
  let day ← parseDate date
  let passed ← parseMark mark
  let _ ← foundOr404 (db.getStreak streakId)
  let change := habitChange (db.habitLog.lookup (day, streakId)) passed edited
  let db := { db with habitLog := db.habitLog.put (day, streakId) change.row }
  let (auditToday, s) ← readDate zones s (readings 0)
  let db ← maybeAudit db (habitTarget day streakId) (change.old.map .bool)
    (change.new.map .bool) day auditToday
  let (today, _) ← readDate zones s (readings 1)
  return ([auditToday, today],
    recomputeStreakState db streakId ⟨today, (readings 1).stamp⟩ (graceEnabled db))

/-- The loop of `toggle_bad_day` over the active streaks, from the reading `i` on. -/
def recountReads (grace : Bool) :
    List ℕ → ℕ → ZoneState → Database → Except Failure (List Date × Database)
  | [], _, _, db => .ok ([], db)
  | streakId :: ids, i, s, db => do
    let (today, s) ← readDate zones s (readings i)
    let (dates, db) ← recountReads grace ids (i + 1) s
      (recomputeStreakState db streakId ⟨today, (readings i).stamp⟩ grace)
    return (today :: dates, db)

/-- `toggle_bad_day`, with the dates that it used. -/
def toggleBadDayReads (date : String) (db : Database) : Except Failure (List Date × Database) := do
  let day ← parseDate date
  let change := badDayChange (db.dailyState.lookup day) edited
  let db := { db with dailyState := db.dailyState.put day change.row }
  let (auditToday, s) ← readDate zones s (readings 0)
  let db ← maybeAudit db (badDayTarget day) (change.old.map .bool) (change.new.map .bool) day
    auditToday
  let (dates, db) ← recountReads zones readings (graceEnabled db) db.activeStreakIds 1 s db
  return (auditToday :: dates, db)

/-! ## What one today means -/

/-- If `mark_habit` commits, the audit and the replay have used one date. -/
def MarksOnOneDay (date : String) (streakId : ℕ) (mark : String) (db : Database) : Prop :=
  ∀ dates db', markHabitReads zones s readings edited date streakId mark db = .ok (dates, db') →
    ∃ today, (∀ d ∈ dates, d = today) ∧
      ∀ day passed, fromisoformat date = some day → parseMark mark = .ok passed →
        db' = recomputeStreakState (habitEdited ⟨today, edited⟩ day streakId passed db) streakId
          ⟨today, (readings 1).stamp⟩ (graceEnabled db)

/-- If `toggle_bad_day` commits, it has used one date, and the state row of every active streak is
the replay of its log on that date. -/
def TogglesOnOneDay (date : String) (db : Database) : Prop :=
  ∀ dates db', toggleBadDayReads zones s readings edited date db = .ok (dates, db') →
    ∃ today, (∀ d ∈ dates, d = today) ∧
      ∀ streakId, Streak.Active db streakId → ∃ stamp,
        db'.streakState.lookup streakId =
          some (stateOf (replay (loggedDays db' streakId) (badDays db') today (graceEnabled db)
            (previousRecord (db.streakState.lookup streakId))) stamp)

end Handlers

/-! ## The zone in force -/

/-- The name that an act saves. -/
def ZoneAct.savedName : ZoneAct → Option String
  | .save name => some name
  | .forget => none
  | .store _ => none

/-- The cached zone that an act leaves, if it touches the cache. -/
def ZoneAct.cachedZone : ZoneAct → Option (Option Zone)
  | .save _ => none
  | .forget => some none
  | .store zone => some (some zone)

/-- The saved name after the acts: the last one that was saved. -/
def savedAfter (saved : Option String) (acts : List ZoneAct) : Option String :=
  (acts.reverse.findSome? ZoneAct.savedName).or saved

/-- The cached zone after the acts: the last one that was cached, unless it was forgotten since. -/
def cachedAfter (cached : Option Zone) (acts : List ZoneAct) : Option Zone :=
  (acts.reverse.findSome? ZoneAct.cachedZone).getD cached

section InForce

variable (zones : Zones) (s : ZoneState)

/-- The zone in force at a call, after what all threads have done before it: if one is cached, the
one that is cached when the call ends; else the saved one, unless the cache is touched before the
call ends; without a saved zone that can be used, the one of the environment. -/
inductive ZoneInForce (past : List ZoneAct) (r : Reading) : Zone → Prop
  | cached (known zone : Zone)
    (hcheck : cachedAfter s.cached (past ++ r.beforeCheck) = some known)
    (hreturn : cachedAfter (some known) r.beforeReturn = some zone) : ZoneInForce past r zone
  | saved (known zone : Zone) (hcheck : cachedAfter s.cached (past ++ r.beforeCheck) = none)
    (hsaved : (savedAfter s.saved (past ++ r.beforeCheck ++ r.beforeRead)).bind zones.named =
      some known)
    (hreturn : cachedAfter (some known) r.beforeReturn = some zone) : ZoneInForce past r zone
  | environment (hcheck : cachedAfter s.cached (past ++ r.beforeCheck) = none)
    (hsaved : (savedAfter s.saved (past ++ r.beforeCheck ++ r.beforeRead)).bind zones.named =
      none) : ZoneInForce past r zones.tz

/-- What is done to the zone during a call: what the other threads do, and that a call that finds no
cached zone caches the saved one. -/
def callActs (past : List ZoneAct) (r : Reading) : List ZoneAct :=
  if (cachedAfter s.cached (past ++ r.beforeCheck)).isSome then r.beforeCheck ++ r.beforeReturn
  else
    match (savedAfter s.saved (past ++ r.beforeCheck ++ r.beforeRead)).bind zones.named with
    | none => r.beforeCheck ++ r.beforeRead
    | some zone => r.beforeCheck ++ r.beforeRead ++ r.beforeStore ++ .store zone :: r.beforeReturn

/-- What is done to the zone before the reading `i`. -/
def pastActs (readings : ℕ → Reading) : ℕ → List ZoneAct
  | 0 => []
  | i + 1 => pastActs readings i ++ callActs zones s (pastActs readings i) (readings i)

/-- The first `n` readings of the clock lie on one local day, each told in the zone in force at that
reading; a reading without one fails, and the request with it. -/
def OnOneLocalDay (readings : ℕ → Reading) (n : ℕ) : Prop :=
  (∀ i < n, ∃ zone, ZoneInForce zones s (pastActs zones s readings i) (readings i) zone) →
    ∃ day : Date, ∀ i < n, ∀ zone,
      ZoneInForce zones s (pastActs zones s readings i) (readings i) zone →
        day * dayLength ≤ (readings i).now + zone.utcoffset (readings i).now ∧
          (readings i).now + zone.utcoffset (readings i).now < (day + 1) * dayLength

end InForce

/-- `mark_habit` passes its checks. -/
def AcceptsHabit (date : String) (streakId : ℕ) (mark : String) (db : Database) : Prop :=
  (∃ day, fromisoformat date = some day) ∧ (∃ passed, parseMark mark = .ok passed) ∧
    ∃ streak, db.getStreak streakId = some streak

/-- No other thread saves, forgets or caches a zone during the call. -/
def Reading.Undisturbed (r : Reading) : Prop :=
  r.beforeCheck = [] ∧ r.beforeRead = [] ∧ r.beforeStore = [] ∧ r.beforeReturn = []

/-- The zone of a call that is not disturbed: the cached one, else the saved one if it can be used,
else the one of the environment. -/
def ZoneState.inForce (s : ZoneState) (zones : Zones) : Zone :=
  (s.cached.or (s.saved.bind zones.named)).getD zones.tz

/-! ## What a call returns -/

theorem after_append (s : ZoneState) (acts more : List ZoneAct) :
    s.after (acts ++ more) = (s.after acts).after more := List.foldl_append

/-- The state is told by the last acts on it. -/
theorem after_eq (s : ZoneState) (acts : List ZoneAct) :
    s.after acts = ⟨savedAfter s.saved acts, cachedAfter s.cached acts⟩ := by
  induction acts using List.reverseRecOn with
  | nil => rfl
  | append_singleton acts act ih =>
    have hreverse : (acts ++ [act]).reverse = act :: acts.reverse := List.reverse_concat
    rw [after_append, ih]
    simp only [savedAfter, cachedAfter, hreverse, List.findSome?_cons]
    cases act <;> rfl

theorem after_cached (s : ZoneState) (acts : List ZoneAct) :
    (s.after acts).cached = cachedAfter s.cached acts := by rw [after_eq]

theorem after_saved (s : ZoneState) (acts : List ZoneAct) :
    (s.after acts).saved = savedAfter s.saved acts := by rw [after_eq]

section Call

variable (zones : Zones) (s : ZoneState) (past : List ZoneAct) (r : Reading)

theorem zoneInForce_of_cached {known : Zone}
    (hcheck : cachedAfter s.cached (past ++ r.beforeCheck) = some known) {zone : Zone} :
    ZoneInForce zones s past r zone ↔ cachedAfter (some known) r.beforeReturn = some zone := by
  constructor
  · rintro (⟨known', _, hcheck', hreturn⟩ | ⟨_, _, hcheck', -, -⟩ | ⟨hcheck', -⟩)
    · obtain rfl := Option.some.inj (hcheck.symm.trans hcheck')
      exact hreturn
    · exact absurd (hcheck.symm.trans hcheck') (Option.some_ne_none known)
    · exact absurd (hcheck.symm.trans hcheck') (Option.some_ne_none known)
  · exact .cached known zone hcheck

theorem zoneInForce_of_empty (hcheck : cachedAfter s.cached (past ++ r.beforeCheck) = none)
    {zone : Zone} :
    ZoneInForce zones s past r zone ↔
      match (savedAfter s.saved (past ++ r.beforeCheck ++ r.beforeRead)).bind zones.named with
      | none => zone = zones.tz
      | some known => cachedAfter (some known) r.beforeReturn = some zone := by
  constructor
  · rintro (⟨known, _, hcheck', -⟩ | ⟨known, _, -, hsaved, hreturn⟩ | ⟨-, hsaved⟩)
    · exact absurd (hcheck.symm.trans hcheck') (Option.some_ne_none known).symm
    · rwa [hsaved]
    · rw [hsaved]
  · intro h
    split at h
    · rename_i hsaved
      rw [h]
      exact .environment hcheck hsaved
    · rename_i known hsaved
      exact .saved known zone hcheck hsaved h

/-- **What a call returns and leaves**: the zone in force, and what was done to it. -/
theorem zoneName_after :
    (∀ zone, (zoneName zones (s.after past) r).1 = some zone ↔ ZoneInForce zones s past r zone) ∧
      (zoneName zones (s.after past) r).2 = s.after (past ++ callActs zones s past r) := by
  rw [zoneName, callActs]
  simp only [← after_append]
  cases hcheck : cachedAfter s.cached (past ++ r.beforeCheck) with
  | some known =>
    have hcached := (after_cached s (past ++ r.beforeCheck)).trans hcheck
    simp only [hcached, Option.isSome_some, if_true]
    refine ⟨fun zone => ?_, by rw [List.append_assoc]⟩
    rw [zoneInForce_of_cached zones s past r hcheck, after_append, after_cached, hcached]
  | none =>
    have hcached := (after_cached s (past ++ r.beforeCheck)).trans hcheck
    have hsaved := after_saved s (past ++ r.beforeCheck ++ r.beforeRead)
    simp only [hcached, hsaved, Option.isSome_none, Bool.false_eq_true, if_false,
      zoneInForce_of_empty zones s past r hcheck]
    cases (savedAfter s.saved (past ++ r.beforeCheck ++ r.beforeRead)).bind zones.named with
    | none =>
      exact ⟨fun zone => by rw [Option.some.injEq, eq_comm], by rw [List.append_assoc]⟩
    | some known =>
      refine ⟨fun zone => by dsimp only; rw [after_cached], ?_⟩
      simp only [← List.append_assoc]
      rw [after_append s _ (_ :: _)]
      rfl

end Call

/-! ## The dates of the zones in force -/

section Runs

variable {zones : Zones} {s : ZoneState} {readings : ℕ → Reading} {edited : Moment}

/-- The zones that the calls from `i` on return, if none of them fails. -/
def zonesReturned (zones : Zones) (readings : ℕ → Reading) :
    ℕ → ℕ → ZoneState → Option (List Zone)
  | 0, _, _ => some []
  | n + 1, i, s => do
    let zone ← (zoneName zones s (readings i)).1
    let rest ← zonesReturned zones readings n (i + 1) (zoneName zones s (readings i)).2
    return zone :: rest

/-- The dates that the readings from `i` on give in the zones. -/
def datesIn (readings : ℕ → Reading) : List Zone → ℕ → List Date
  | [], _ => []
  | zone :: rest, i => currentDate zone (readings i).now :: datesIn readings rest (i + 1)

theorem readDate_eq_ok {r : Reading} {d : Date} {s' : ZoneState} :
    readDate zones s r = .ok (d, s') ↔
      ∃ zone, (zoneName zones s r).1 = some zone ∧ d = currentDate zone r.now ∧
        s' = (zoneName zones s r).2 := by
  rw [readDate]
  cases (zoneName zones s r).1 with
  | none => simp
  | some zone => simp [eq_comm]

theorem zonesReturned_zero (i : ℕ) : zonesReturned zones readings 0 i s = some [] := rfl

theorem zonesReturned_succ {n i : ℕ} {inForce : List Zone} :
    zonesReturned zones readings (n + 1) i s = some inForce ↔
      ∃ zone rest, (zoneName zones s (readings i)).1 = some zone ∧
        zonesReturned zones readings n (i + 1) (zoneName zones s (readings i)).2 = some rest ∧
        inForce = zone :: rest := by
  rw [zonesReturned]
  simp only [Option.bind_eq_bind, Option.bind_eq_some_iff, pure, Option.some.injEq]
  constructor
  · rintro ⟨zone, hzone, rest, hrest, rfl⟩
    exact ⟨zone, rest, hzone, hrest, rfl⟩
  · rintro ⟨zone, rest, hzone, hrest, rfl⟩
    exact ⟨zone, hzone, rest, hrest, rfl⟩

theorem localDateOf_eq_iff_clock {zone : Zone} {m : Moment} {day : Date} :
    localDateOf zone m = day ↔
      day * dayLength ≤ m + zone.utcoffset m ∧ m + zone.utcoffset m < (day + 1) * dayLength := by
  rw [localDateOf, ← Int.le_ediv_iff_mul_le dayLength_pos, ← Int.ediv_lt_iff_lt_mul dayLength_pos]
  constructor
  · rintro rfl
    exact ⟨le_rfl, Int.lt_succ _⟩
  · rintro ⟨hle, hlt⟩
    exact le_antisymm (Int.lt_add_one_iff.mp hlt) hle

theorem forall_datesIn_iff (inForce : List Zone) (i : ℕ) (today : Date) :
    (∀ d ∈ datesIn readings inForce i, d = today) ↔
      ∀ j zone, inForce[j]? = some zone → localDateOf zone (readings (i + j)).now = today := by
  induction inForce generalizing i with
  | nil => simp [datesIn]
  | cons zone rest ih =>
    rw [datesIn, List.forall_mem_cons, ih]
    constructor
    · rintro ⟨hhead, hrest⟩ j z hz
      cases j with
      | zero =>
        obtain rfl := Option.some.inj hz
        exact hhead
      | succ j =>
        have hdate := hrest j z hz
        rwa [show i + 1 + j = i + (j + 1) by omega] at hdate
    · intro h
      refine ⟨h 0 zone rfl, fun j z hz => ?_⟩
      rw [show i + 1 + j = i + (j + 1) by omega]
      exact h (j + 1) z hz

/-- **The zones that the calls return** are those in force. -/
theorem zonesReturned_eq_some {n i : ℕ} {inForce : List Zone} :
    zonesReturned zones readings n i (s.after (pastActs zones s readings i)) = some inForce ↔
      inForce.length = n ∧ ∀ (j : ℕ) (zone : Zone), inForce[j]? = some zone →
        ZoneInForce zones s (pastActs zones s readings (i + j)) (readings (i + j)) zone := by
  induction n generalizing i inForce with
  | zero =>
    rw [zonesReturned_zero, Option.some.injEq, List.length_eq_zero_iff]
    constructor
    · rintro rfl
      exact ⟨rfl, fun j zone h => by simp at h⟩
    · rintro ⟨rfl, -⟩
      rfl
  | succ n ih =>
    obtain ⟨hzone, hstate⟩ := zoneName_after zones s (pastActs zones s readings i) (readings i)
    rw [zonesReturned_succ, hstate]
    change (∃ zone rest, _ ∧ zonesReturned zones readings n (i + 1)
      (s.after (pastActs zones s readings (i + 1))) = some rest ∧ _) ↔ _
    constructor
    · rintro ⟨zone, rest, hhead, hrest, rfl⟩
      obtain ⟨hlength, hrest⟩ := ih.mp hrest
      refine ⟨congrArg Nat.succ hlength, fun j z hz => ?_⟩
      cases j with
      | zero =>
        rw [← Option.some.inj hz]
        exact (hzone zone).mp hhead
      | succ j =>
        rw [show i + (j + 1) = i + 1 + j by omega]
        exact hrest j z hz
    · rintro ⟨hlength, hall⟩
      obtain ⟨zone, rest, rfl⟩ := List.exists_cons_of_length_eq_add_one hlength
      refine ⟨zone, rest, (hzone zone).mpr (hall 0 zone rfl),
        ih.mpr ⟨Nat.succ.inj hlength, fun j z hz => ?_⟩, rfl⟩
      rw [show i + 1 + j = i + (j + 1) by omega]
      exact hall (j + 1) z hz

theorem ZoneInForce.unique {past : List ZoneAct} {r : Reading} {zone zone' : Zone}
    (h : ZoneInForce zones s past r zone) (h' : ZoneInForce zones s past r zone') :
    zone = zone' := by
  have hreturned := (zoneName_after zones s past r).1
  exact Option.some.inj (((hreturned zone).mpr h).symm.trans ((hreturned zone').mpr h'))

/-- The readings lie on one local day exactly when they give one date. -/
theorem onOneLocalDay_iff {n : ℕ} :
    OnOneLocalDay zones s readings n ↔
      ∀ inForce, zonesReturned zones readings n 0 s = some inForce →
        ∃ today, ∀ d ∈ datesIn readings inForce 0, d = today := by
  have hreturned (inForce : List Zone) : zonesReturned zones readings n 0 s = some inForce ↔ _ :=
    zonesReturned_eq_some (i := 0)
  simp only [hreturned, forall_datesIn_iff, Nat.zero_add, OnOneLocalDay,
    ← localDateOf_eq_iff_clock]
  constructor
  · rintro h inForce ⟨rfl, hinForce⟩
    have hsome (i : ℕ) (hi : i < inForce.length) : inForce[i]? = some inForce[i] :=
      List.getElem?_eq_getElem hi
    obtain ⟨today, htoday⟩ := h fun i hi => ⟨_, hinForce i _ (hsome i hi)⟩
    exact ⟨today, fun j zone hzone =>
      htoday j (List.getElem?_eq_some_iff.mp hzone).1 zone (hinForce j zone hzone)⟩
  · intro h hzones
    choose zone hzone using hzones
    have hget (i : ℕ) (hi : i < n) :
        (List.ofFn fun k : Fin n => zone k k.isLt)[i]? = some (zone i hi) := by
      rw [List.getElem?_ofFn, dif_pos hi]
    obtain ⟨today, htoday⟩ := h (List.ofFn fun k : Fin n => zone k k.isLt)
      ⟨List.length_ofFn, fun j z hz => by
        obtain ⟨hj, -⟩ := List.getElem?_eq_some_iff.mp hz
        rw [List.length_ofFn] at hj
        rw [← Option.some.inj ((hget j hj).symm.trans hz)]
        exact hzone j hj⟩
    refine ⟨today, fun i hi z hz => ?_⟩
    obtain rfl := hz.unique (hzone i hi)
    exact htoday i _ (hget i hi)

/-! ## What the handlers leave -/

/-- **What `mark_habit` leaves**, for the dates that it reads. -/
theorem markHabitReads_eq_ok {date : String} {streakId : ℕ} {mark : String} {db db' : Database}
    {dates : List Date} :
    markHabitReads zones s readings edited date streakId mark db = .ok (dates, db') ↔
      ∃ day passed auditToday today inForce, fromisoformat date = some day ∧
        parseMark mark = .ok passed ∧ (∃ streak, db.getStreak streakId = some streak) ∧
        zonesReturned zones readings 2 0 s = some inForce ∧
        datesIn readings inForce 0 = [auditToday, today] ∧ dates = [auditToday, today] ∧
        db' = recomputeStreakState (habitEdited ⟨auditToday, edited⟩ day streakId passed db)
          streakId ⟨today, (readings 1).stamp⟩ (graceEnabled db) := by
  rw [markHabitReads]
  simp only [bind_eq_ok, parseDate_eq_ok, foundOr404_eq_ok, Prod.exists, readDate_eq_ok,
    maybeAudit_eq_due (eqTellsChange_map_bool _ _), zonesReturned_succ, zonesReturned_zero,
    Option.some.injEq, Except.ok.injEq, pure, Except.pure, Prod.mk.injEq]
  constructor
  · rintro ⟨day, hday, passed, hmark, streak, hstreak, auditToday, _, ⟨zone, hzone, rfl, rfl⟩,
      _, rfl, today, _, ⟨zone', hzone', rfl, rfl⟩, rfl, rfl⟩
    exact ⟨day, passed, _, _, [zone, zone'], hday, hmark, ⟨streak, hstreak⟩,
      ⟨zone, [zone'], hzone, ⟨zone', [], hzone', rfl, rfl⟩, rfl⟩, rfl, rfl, rfl⟩
  · rintro ⟨day, passed, auditToday, today, _, hday, hmark, ⟨streak, hstreak⟩,
      ⟨zone, _, hzone, ⟨zone', _, hzone', rfl, rfl⟩, rfl⟩, hdates, rfl, rfl⟩
    obtain ⟨rfl, hrest⟩ := List.cons.inj hdates
    obtain ⟨rfl, -⟩ := List.cons.inj hrest
    exact ⟨day, hday, passed, hmark, streak, hstreak, _, _, ⟨zone, hzone, rfl, rfl⟩, _, rfl, _, _,
      ⟨zone', hzone', rfl, rfl⟩, rfl, rfl⟩

/-- The recounts of several streaks, each on its own date. -/
def recountOn (readings : ℕ → Reading) (grace : Bool) :
    List ℕ → List Date → ℕ → Database → Database
  | streakId :: ids, today :: dates, i, db =>
    recountOn readings grace ids dates (i + 1)
      (recomputeStreakState db streakId ⟨today, (readings i).stamp⟩ grace)
  | _, _, _, db => db

/-- What the loop leaves, for the dates that it reads. -/
theorem recountReads_eq_ok {grace : Bool} {ids : List ℕ} {i : ℕ} {s : ZoneState}
    {db db' : Database} {dates : List Date} :
    recountReads zones readings grace ids i s db = .ok (dates, db') ↔
      ∃ inForce, zonesReturned zones readings ids.length i s = some inForce ∧
        dates = datesIn readings inForce i ∧ db' = recountOn readings grace ids dates i db := by
  induction ids generalizing i s db db' dates with
  | nil =>
    rw [recountReads, Except.ok.injEq, Prod.mk.injEq]
    constructor
    · rintro ⟨rfl, rfl⟩
      exact ⟨[], rfl, rfl, rfl⟩
    · rintro ⟨inForce, hzones, rfl, rfl⟩
      obtain rfl := Option.some.inj hzones
      exact ⟨rfl, rfl⟩
  | cons streakId ids ih =>
    rw [recountReads]
    simp only [bind_eq_ok, Prod.exists, readDate_eq_ok, ih, List.length_cons, zonesReturned_succ,
      pure, Except.pure, Except.ok.injEq, Prod.mk.injEq]
    constructor
    · rintro ⟨today, _, ⟨zone, hzone, rfl, rfl⟩, rest, _, ⟨inForce, hzones, rfl, rfl⟩, rfl, rfl⟩
      exact ⟨zone :: inForce, ⟨zone, inForce, hzone, hzones, rfl⟩, rfl, rfl⟩
    · rintro ⟨_, ⟨zone, inForce, hzone, hzones, rfl⟩, rfl, rfl⟩
      exact ⟨_, _, ⟨zone, hzone, rfl, rfl⟩, _, _, ⟨inForce, hzones, rfl, rfl⟩, rfl, rfl⟩

/-- **What `toggle_bad_day` leaves**, for the dates that it reads. -/
theorem toggleBadDayReads_eq_ok {date : String} {db db' : Database} {dates : List Date} :
    toggleBadDayReads zones s readings edited date db = .ok (dates, db') ↔
      ∃ day auditToday rest inForce, fromisoformat date = some day ∧
        zonesReturned zones readings (db.activeStreakIds.length + 1) 0 s = some inForce ∧
        datesIn readings inForce 0 = auditToday :: rest ∧ dates = auditToday :: rest ∧
        db' = recountOn readings (graceEnabled db) db.activeStreakIds rest 1
          (badDayEdited ⟨auditToday, edited⟩ day db) := by
  rw [toggleBadDayReads]
  simp only [bind_eq_ok, parseDate_eq_ok, Prod.exists, readDate_eq_ok,
    maybeAudit_eq_due (eqTellsChange_map_bool _ _), zonesReturned_succ, recountReads_eq_ok,
    Except.ok.injEq, pure, Except.pure, Prod.mk.injEq]
  constructor
  · rintro ⟨day, hday, auditToday, _, ⟨zone, hzone, rfl, rfl⟩, _, rfl, rest, _,
      ⟨inForce, hzones, rfl, rfl⟩, rfl, rfl⟩
    exact ⟨day, _, _, zone :: inForce, hday, ⟨zone, inForce, hzone, hzones, rfl⟩, rfl, rfl, rfl⟩
  · rintro ⟨day, auditToday, rest, _, hday, ⟨zone, inForce, hzone, hzones, rfl⟩, hdates, rfl, rfl⟩
    obtain ⟨rfl, rfl⟩ := List.cons.inj hdates
    exact ⟨day, hday, _, _, ⟨zone, hzone, rfl, rfl⟩, _, rfl, _, _, ⟨inForce, hzones, rfl, rfl⟩, rfl,
      rfl⟩

/-- The rows that are recounted on one date. -/
theorem lookup_recountOn {grace : Bool} {today : Date} {ids : List ℕ} (hids : ids.Nodup)
    {dates : List Date} (hlength : dates.length = ids.length) (hdates : ∀ d ∈ dates, d = today)
    (i : ℕ) (db : Database) :
    ∃ rows, recountOn readings grace ids dates i db = { db with streakState := rows } ∧
      ∀ k, (k ∈ ids → ∃ stamp,
          rows.lookup k = some (recomputedStreakState db k ⟨today, stamp⟩ grace)) ∧
        (k ∉ ids → rows.lookup k = db.streakState.lookup k) := by
  induction ids generalizing dates i db with
  | nil =>
    cases dates with
    | nil =>
      exact ⟨db.streakState, rfl, fun k => ⟨fun h => absurd h List.not_mem_nil, fun _ => rfl⟩⟩
    | cons d dates => exact absurd hlength (by simp)
  | cons id ids ih =>
    cases dates with
    | nil => exact absurd hlength (by simp)
    | cons d dates =>
      rw [List.nodup_cons] at hids
      rw [List.forall_mem_cons] at hdates
      obtain ⟨rfl, hdates⟩ := hdates
      let next := recomputeStreakState db id ⟨d, (readings i).stamp⟩ grace
      obtain ⟨rows, hrows, hlookup⟩ := ih hids.2 (Nat.succ.inj hlength) hdates (i + 1) next
      refine ⟨rows, hrows, fun k => ⟨fun hk => ?_, fun hk => ?_⟩⟩
      · by_cases hmem : k ∈ ids
        · obtain ⟨stamp, hstamp⟩ := (hlookup k).1 hmem
          have hne : k ≠ id := fun h => hids.1 (h ▸ hmem)
          have hsame : next.streakState.lookup k = db.streakState.lookup k :=
            AList.lookup_insert_ne hne
          refine ⟨stamp, hstamp.trans ?_⟩
          rw [recomputedStreakState, recomputedStreakState, hsame]
          rfl
        · obtain rfl := (List.mem_cons.mp hk).resolve_right hmem
          exact ⟨(readings i).stamp, ((hlookup k).2 hmem).trans (AList.lookup_insert _)⟩
      · rw [List.mem_cons, not_or] at hk
        exact ((hlookup k).2 hk.2).trans (AList.lookup_insert_ne hk.1)

theorem length_zonesReturned {n i : ℕ} {s : ZoneState} {inForce : List Zone}
    (h : zonesReturned zones readings n i s = some inForce) : inForce.length = n := by
  induction n generalizing i s inForce with
  | zero =>
    obtain rfl := Option.some.inj h
    rfl
  | succ n ih =>
    obtain ⟨zone, rest, -, hrest, rfl⟩ := zonesReturned_succ.mp h
    rw [List.length_cons, ih hrest]

theorem length_datesIn (inForce : List Zone) (i : ℕ) :
    (datesIn readings inForce i).length = inForce.length := by
  induction inForce generalizing i with
  | nil => rfl
  | cons zone rest ih => rw [datesIn, List.length_cons, List.length_cons, ih]

/-! ## When a request uses one date -/

/-- **When `mark_habit` uses one date.** -/
theorem marksOnOneDay_iff {date : String} {streakId : ℕ} {mark : String} {db : Database} :
    MarksOnOneDay zones s readings edited date streakId mark db ↔
      (AcceptsHabit date streakId mark db → OnOneLocalDay zones s readings 2) := by
  constructor
  · rintro h ⟨⟨day, hday⟩, ⟨passed, hmark⟩, hstreak⟩
    rw [onOneLocalDay_iff]
    intro inForce hzones
    have htwo : (datesIn readings inForce 0).length = 2 :=
      (length_datesIn inForce 0).trans (length_zonesReturned hzones)
    obtain ⟨auditToday, today, hdates⟩ := List.length_eq_two.mp htwo
    obtain ⟨t, ht, -⟩ := h _ _ (markHabitReads_eq_ok.mpr
      ⟨day, passed, auditToday, today, inForce, hday, hmark, hstreak, hzones, hdates, rfl, rfl⟩)
    exact ⟨t, hdates ▸ ht⟩
  · intro h dates db' hok
    obtain ⟨day, passed, auditToday, today, inForce, hday, hmark, hstreak, hzones, hdates, rfl,
      rfl⟩ := markHabitReads_eq_ok.mp hok
    have hone := h ⟨⟨day, hday⟩, ⟨passed, hmark⟩, hstreak⟩
    obtain ⟨t, ht⟩ := onOneLocalDay_iff.mp hone inForce hzones
    rw [hdates] at ht
    obtain rfl := ht auditToday List.mem_cons_self
    obtain rfl := ht today (by simp)
    refine ⟨today, ht, fun day' passed' hday' hmark' => ?_⟩
    obtain rfl := Option.some.inj (hday.symm.trans hday')
    obtain rfl := Except.ok.inj (hmark.symm.trans hmark')
    rfl

/-- **When `toggle_bad_day` uses one date.** -/
theorem togglesOnOneDay_iff {date : String} {db : Database}
    (hids : (db.streaks.map Streak.id).Nodup) :
    TogglesOnOneDay zones s readings edited date db ↔
      ((∃ day, fromisoformat date = some day) →
        OnOneLocalDay zones s readings (db.activeStreakIds.length + 1)) := by
  constructor
  · rintro h ⟨day, hday⟩
    rw [onOneLocalDay_iff]
    intro inForce hzones
    cases hdates : datesIn readings inForce 0 with
    | nil => exact ⟨0, by simp⟩
    | cons auditToday rest =>
      obtain ⟨t, ht, -⟩ := h _ _ (toggleBadDayReads_eq_ok.mpr
        ⟨day, auditToday, rest, inForce, hday, hzones, hdates, rfl, rfl⟩)
      exact ⟨t, ht⟩
  · intro h dates db' hok
    obtain ⟨day, auditToday, rest, inForce, hday, hzones, hdates, rfl, rfl⟩ :=
      toggleBadDayReads_eq_ok.mp hok
    obtain ⟨t, ht⟩ := onOneLocalDay_iff.mp (h ⟨day, hday⟩) inForce hzones
    rw [hdates] at ht
    have hlength : rest.length = db.activeStreakIds.length := by
      have hall := congrArg List.length hdates
      rw [length_datesIn, length_zonesReturned hzones, List.length_cons] at hall
      exact (Nat.succ.inj hall).symm
    have hnodup : db.activeStreakIds.Nodup := hids.sublist (List.filter_sublist.map _)
    obtain ⟨rows, hrows, hlookup⟩ := lookup_recountOn hnodup hlength
      (List.forall_mem_cons.mp ht).2 1 (badDayEdited ⟨auditToday, edited⟩ day db)
    refine ⟨t, ht, fun streakId hactive => ?_⟩
    obtain ⟨stamp, hstamp⟩ := (hlookup streakId).1 hactive
    refine ⟨stamp, ?_⟩
    rw [hrows]
    exact hstamp

/-! ## While no zone is saved -/

/-- A call that is not disturbed returns the zone in force, which stays in force. -/
theorem zoneName_undisturbed (zones : Zones) {r : Reading} (h : r.Undisturbed) (s : ZoneState) :
    (zoneName zones s r).1 = some (s.inForce zones) ∧
      (zoneName zones s r).2.inForce zones = s.inForce zones := by
  obtain ⟨hcheck, hread, hstore, hreturn⟩ := h
  obtain ⟨saved, cached⟩ := s
  rw [zoneName, hcheck, hread, hstore, hreturn]
  cases cached with
  | some zone => exact ⟨rfl, rfl⟩
  | none =>
    cases hsaved : saved.bind zones.named with
    | none => simp [ZoneState.after, ZoneState.inForce, hsaved]
    | some zone => simp [ZoneState.after, ZoneState.inForce, hsaved]

theorem zonesReturned_undisturbed {n i : ℕ} {s : ZoneState}
    (h : ∀ j, i ≤ j → j < i + n → (readings j).Undisturbed) :
    zonesReturned zones readings n i s = some (List.replicate n (s.inForce zones)) := by
  induction n generalizing i s with
  | zero => rfl
  | succ n ih =>
    obtain ⟨hzone, hstate⟩ := zoneName_undisturbed zones
      (h i le_rfl (by omega)) s
    refine zonesReturned_succ.mpr ⟨_, _, hzone, ih fun j hij hj => h j (by omega) (by omega), ?_⟩
    rw [hstate]
    rfl

/-- **While no zone is saved**, the readings lie on one local day exactly when the first and the
last one do. -/
theorem onOneLocalDay_undisturbed_iff (hclock : Monotone fun i => (readings i).now) {n : ℕ}
    (h : ∀ i, i < n + 1 → (readings i).Undisturbed)
    (hzone : (s.inForce zones).DateNeverDecreases) :
    OnOneLocalDay zones s readings (n + 1) ↔
      localDateOf (s.inForce zones) (readings 0).now =
        localDateOf (s.inForce zones) (readings n).now := by
  have hzones : zonesReturned zones readings (n + 1) 0 s =
      some (List.replicate (n + 1) (s.inForce zones)) :=
    zonesReturned_undisturbed fun j _ hj => h j (by omega)
  rw [onOneLocalDay_iff]
  simp only [hzones, Option.some.injEq, forall_eq', forall_datesIn_iff, Nat.zero_add,
    List.getElem?_replicate, Option.ite_none_right_eq_some]
  constructor
  · rintro ⟨today, htoday⟩
    exact (htoday 0 _ ⟨by omega, rfl⟩).trans (htoday n _ ⟨by omega, rfl⟩).symm
  · intro heq
    refine ⟨localDateOf (s.inForce zones) (readings 0).now, ?_⟩
    rintro j _ ⟨hj, rfl⟩
    refine le_antisymm ?_ (hzone _ _ (hclock (Nat.zero_le j)))
    rw [heq]
    exact hzone _ _ (hclock (Nat.lt_succ_iff.mp hj))

end Runs

/-- **When a request uses one date.**  `mark_habit` and `toggle_bad_day` use one date, for the audit
and for every replay, exactly when their readings of the clock lie on one local day, each told in
the zone in force at it.  While no other thread touches the zone, that is so exactly when the first
and the last reading lie on one day. -/
theorem one_today_iff (zones : Zones) (s : ZoneState) (readings : ℕ → Reading) (edited : Moment)
    (hclock : Monotone fun i => (readings i).now) :
    (∀ date streakId mark db, MarksOnOneDay zones s readings edited date streakId mark db ↔
      (AcceptsHabit date streakId mark db → OnOneLocalDay zones s readings 2)) ∧
    (∀ (date : String) (db : Database), (db.streaks.map Streak.id).Nodup →
      (TogglesOnOneDay zones s readings edited date db ↔
        ((∃ day, fromisoformat date = some day) →
          OnOneLocalDay zones s readings (db.activeStreakIds.length + 1)))) ∧
    ∀ n, (∀ i, i < n + 1 → (readings i).Undisturbed) →
      (s.inForce zones).DateNeverDecreases →
      (OnOneLocalDay zones s readings (n + 1) ↔
        localDateOf (s.inForce zones) (readings 0).now =
          localDateOf (s.inForce zones) (readings n).now) :=
  ⟨fun _ _ _ _ => marksOnOneDay_iff, fun _ _ hids => togglesOnOneDay_iff hids,
    fun _ h hzone => onOneLocalDay_undisturbed_iff hclock h hzone⟩

/-- A process whose zone is UTC. -/
def utcZones : Zones := ⟨fun _ => none, utcZone⟩

/-- Readings at the start of 2026-01-06, a microsecond apart. -/
def morningReadings (i : ℕ) : Reading := { now := 739622 * dayLength + i, stamp := 0 }

/-- Two streaks. -/
def twoStreaks : Database := { streaks := [{ id := 1 }, { id := 2 }] }

theorem one_today_iff_morningReadings :
    TogglesOnOneDay utcZones ⟨none, none⟩ morningReadings 0 "2026-01-06" twoStreaks := by
  have hclock : Monotone fun i => (morningReadings i).now := by
    intro i j hij
    exact add_le_add_right (Int.ofNat_le.mpr hij) _
  have hiff := one_today_iff utcZones ⟨none, none⟩ morningReadings 0 hclock
  refine (hiff.2.1 "2026-01-06" twoStreaks (by decide)).mpr fun _ => ?_
  refine (hiff.2.2 2 (fun i _ => ⟨rfl, rfl, rfl, rfl⟩) fun m m' hle => ?_).mpr (by decide)
  exact Int.ediv_le_ediv dayLength_pos (add_le_add_left hle 0)

/-- Readings of which the first is the last moment of 2026-01-06 in UTC. -/
def midnightReadings (i : ℕ) : Reading := { now := 739623 * dayLength - 1 + i, stamp := 0 }

/-- The audit uses the day that ends and the replay the one that begins. -/
theorem not_marksOnOneDay_midnight :
    ¬ MarksOnOneDay utcZones ⟨none, none⟩ midnightReadings 0 "2026-01-06" 1 "pass" twoStreaks := by
  intro h
  have hzones : zonesReturned utcZones midnightReadings 2 0 ⟨none, none⟩ =
      some [utcZone, utcZone] := rfl
  obtain ⟨today, hdates, -⟩ := h _ _ (markHabitReads_eq_ok.mpr ⟨739622, true, 739622, 739623, _,
    by decide, rfl, ⟨{ id := 1 }, by decide⟩, hzones, by decide, rfl, rfl⟩)
  have hfirst : (739622 : ℤ) = today := hdates _ List.mem_cons_self
  have hsecond : (739623 : ℤ) = today := hdates _ (by simp)
  omega

end EpsCloud
