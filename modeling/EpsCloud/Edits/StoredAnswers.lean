import EpsCloud.Routes.Sessions

/-!
# Whether an answer tells what is stored

One read of a journal request fails.  If the request then answers with success, are
its event row, its audit and its state row committed, and if not, is none of them?

A failed query of the handler raises before the commit, and nothing is stored.  The
zone lookup that `current_date()` makes is different: its failure is caught, and
with it the registry's session goes, with the pending rows in it.  The handler keeps
the old session object, works on, and commits a new session that holds nothing.
And a row that is read again to render the answer is read after the commit.

* `program_prepares`, `program_settles`: the handlers keep to the discipline that
  `UnitOfWork` asks for.
* `dueWrites_eq_nil_iff`: which requests have nothing to write.
* `stored_answer_iff`: for which failed reads the answer tells what is stored.
* `lost_mark_answers_success`: a mark that is answered with success and not stored.
-/

namespace EpsCloud

open UnitOfWork

/-- The request has nothing to write: it clears a metric that has no value on the day. -/
def JournalRequest.SavesNothing (py : TextParsers) (db : Database) : JournalRequest → Prop
  | .saveMetric date metricId value =>
    ∃ day metric, fromisoformat date = some day ∧ db.getMetric metricId = some metric ∧
      py.strip value = "" ∧ db.metricLog.lookup (day, metricId) = none
  | _ => False

/-- A number is saved that is a signalling NaN, or over one. -/
def SignallingSave (metricType : MetricType) (entry : Option MetricLog) (value : Option Decimal) :
    Prop :=
  metricType = .numeric ∧ ∃ v ∈ value, v.isSignalling = true ∨
    ∃ e ∈ entry, e.value.isSignalling = true

/-- The request saves a signalling NaN, or saves over one. -/
def JournalRequest.MeetsSignalling (py : TextParsers) (db : Database) : JournalRequest → Prop
  | .saveMetric date metricId text =>
    ∃ day metric value, fromisoformat date = some day ∧ db.getMetric metricId = some metric ∧
      parseMetricValue py metric text = .ok value ∧
      SignallingSave metric.metricType (db.metricLog.lookup (day, metricId)) value
  | _ => False

/-! ## The handlers keep to one session -/

section Discipline

variable (process : Process) {session : ℕ} {ok : Bool}

/-- What holds of a guarded read that goes on well holds of a handler that asks for the day. -/
theorem currentDay_of_guarded {P : SessionHandler → Prop}
    (hguarded : ∀ next : Option Database → SessionHandler, (∀ read, P (next read)) →
      P (.guarded next)) (cached : Option Zone) {next : Option Zone → Date → SessionHandler}
    (h : ∀ cached today, P (next cached today)) : P (process.currentDay cached next) := by
  cases cached with
  | some zone => exact h _ _
  | none =>
    refine hguarded _ fun read => ?_
    cases read.bind process.savedZone with
    | some zone => exact h _ _
    | none => exact h _ _

theorem works_currentDay (cached : Option Zone) {next : Option Zone → Date → SessionHandler}
    (h : ∀ cached today, (next cached today).Works session) :
    (process.currentDay cached next).Works session :=
  currentDay_of_guarded process (P := Handler.Works session) (fun _ h => h) cached h

theorem ends_currentDay (cached : Option Zone) {next : Option Zone → Date → SessionHandler}
    (h : ∀ cached today, (next cached today).Ends ok) :
    (process.currentDay cached next).Ends ok :=
  currentDay_of_guarded process (P := Handler.Ends ok) (fun _ h => h) cached h

theorem works_audit (target : AuditTarget) (old new : Option AuditValue) (day today : Date)
    {next : SessionHandler} (h : next.Works session) :
    (Process.audit session target old new day today next).Works session :=
  Handler.works_check _ fun _ => Handler.works_addAll _ h

/-- An audit of values that can be compared does not raise. -/
theorem ends_audit {old new : Option AuditValue} {equal : Bool}
    (heq : optionEq old new = some equal) (target : AuditTarget) (day today : Date)
    {next : SessionHandler} (h : next.Ends ok) :
    (Process.audit session target old new day today next).Ends ok := by
  rw [Process.audit, auditRows, heq]
  split_ifs
  · exact Handler.ends_addAll _ _ h
  · cases equal <;> exact Handler.ends_addAll _ _ h

/-- An audit of a value that cannot be compared raises on every day. -/
theorem raises_audit {old : AuditValue} {new : Option AuditValue}
    (heq : optionEq (some old) new = none) (target : AuditTarget) (day today : Date)
    (next : SessionHandler) :
    (Process.audit session target (some old) new day today next) = .raise .raised := by
  rw [Process.audit, auditRows, if_neg fun h => absurd h.1 (Option.some_ne_none old), heq]
  rfl

theorem works_recomputeStreak (streakId : ℕ) (today : Date) (grace : Bool)
    {next : SessionHandler} (h : next.Works session) :
    (process.recomputeStreak session streakId today grace next).Works session :=
  ⟨rfl, fun _ _ _ => ⟨rfl, rfl, h⟩⟩

theorem ends_recomputeStreak (streakId : ℕ) (today : Date) (grace : Bool)
    {next : SessionHandler} (h : next.Ends ok) :
    (process.recomputeStreak session streakId today grace next).Ends ok :=
  fun _ _ _ => h

theorem renders_render (session n : ℕ) : (Process.render session n).Renders session := by
  induction n with
  | zero => exact trivial
  | succ n ih => exact ⟨rfl, fun _ => ih⟩

theorem ends_render (session n : ℕ) : (Process.render session n).Ends true := by
  induction n with
  | zero => rfl
  | succ n ih => exact ih

theorem works_finishHabit (day : Date) (streakId : ℕ) (change : RowChange HabitLog Bool)
    (session : ℕ) : (process.finishHabit day streakId change session).Works session :=
  works_currentDay process _ fun _ _ => works_audit _ _ _ _ _ <|
    works_currentDay process _ fun _ _ => fun _ =>
      works_recomputeStreak process _ _ _ (renders_render session _)

theorem ends_finishHabit (day : Date) (streakId : ℕ) (change : RowChange HabitLog Bool)
    (session : ℕ) : (process.finishHabit day streakId change session).Ends true :=
  ends_currentDay process _ fun _ _ => ends_audit (eqTellsChange_map_bool _ _) _ _ _ <|
    ends_currentDay process _ fun _ _ => fun _ =>
      ends_recomputeStreak process _ _ _ (ends_render session _)

theorem works_finishTracker (day : Date) (trackerId : ℕ) (change : RowChange TrackerEvent Bool)
    (session : ℕ) : (process.finishTracker day trackerId change session).Works session :=
  works_currentDay process _ fun _ _ => works_audit _ _ _ _ _ <|
    works_currentDay process _ fun _ _ =>
      ⟨rfl, fun _ _ => ⟨rfl, rfl, renders_render session _⟩⟩

theorem ends_finishTracker (day : Date) (trackerId : ℕ) (change : RowChange TrackerEvent Bool)
    (session : ℕ) : (process.finishTracker day trackerId change session).Ends true :=
  ends_currentDay process _ fun _ _ => ends_audit (eqTellsChange_map_bool _ _) _ _ _ <|
    ends_currentDay process _ fun _ _ => fun _ _ => ends_render session _

theorem works_recountAll (grace : Bool) (ids : List ℕ) (cached : Option Zone) :
    (process.recountAll session grace ids cached).Works session := by
  induction ids generalizing cached with
  | nil => exact trivial
  | cons id ids ih =>
    exact works_currentDay process _ fun _ _ => works_recomputeStreak process _ _ _ (ih _)

theorem ends_recountAll (grace : Bool) (ids : List ℕ) (cached : Option Zone) :
    (process.recountAll session grace ids cached).Ends true := by
  induction ids generalizing cached with
  | nil => rfl
  | cons id ids ih =>
    exact ends_currentDay process _ fun _ _ => ends_recomputeStreak process _ _ _ (ih _)

theorem works_finishBadDay (day : Date) (change : RowChange DailyState Bool) (session : ℕ) :
    (process.finishBadDay day change session).Works session :=
  works_currentDay process _ fun _ _ => works_audit _ _ _ _ _ fun _ _ =>
    works_recountAll process _ _ _

theorem ends_finishBadDay (day : Date) (change : RowChange DailyState Bool) (session : ℕ) :
    (process.finishBadDay day change session).Ends true :=
  ends_currentDay process _ fun _ _ => ends_audit (eqTellsChange_map_bool _ _) _ _ _ fun _ _ =>
    ends_recountAll process _ _ _

theorem renders_renderMetric (day : Date) (metricId : ℕ) (metric : Metric)
    (value : Option Decimal) (session : ℕ) :
    (Process.renderMetric day metricId metric value session).Renders session := by
  refine ⟨rfl, fun _ => ?_⟩
  split_ifs
  · exact trivial
  · cases value with
    | none => exact trivial
    | some value =>
      refine ⟨rfl, fun read => ?_⟩
      dsimp only
      split_ifs <;> exact trivial

theorem works_finishMetric (day : Date) (metricId : ℕ) (metric : Metric)
    (change : RowChange MetricLog Decimal) (session : ℕ) :
    (process.finishMetric day metricId metric change session).Works session :=
  works_currentDay process _ fun _ _ => works_audit _ _ _ _ _
    (renders_renderMetric day metricId metric _ session)

/-- **Every handler queries, asks for its session, changes only that one, and commits once.** -/
theorem program_prepares (py : TextParsers) (req : JournalRequest) :
    (process.program py req).Prepares := by
  cases req with
  | markHabit date streakId mark =>
    exact Handler.prepares_check _ fun day => Handler.prepares_check _ fun passed =>
      ⟨rfl, fun _ => Handler.prepares_check _ fun _ => ⟨rfl, fun _ => ⟨rfl,
        works_finishHabit process day streakId _⟩⟩⟩
  | markTracker date trackerId =>
    exact Handler.prepares_check _ fun day => ⟨rfl, fun _ => Handler.prepares_check _ fun _ =>
      ⟨rfl, fun _ => ⟨rfl, works_finishTracker process day trackerId _⟩⟩⟩
  | saveMetric date metricId value =>
    exact Handler.prepares_check _ fun day => ⟨rfl, fun _ => Handler.prepares_check _ fun metric =>
      Handler.prepares_check _ fun value => ⟨rfl, fun _ => Handler.prepares_check _ fun change =>
        Handler.prepares_addAll _ (works_finishMetric process day metricId metric change)⟩⟩
  | toggleBadDay date =>
    exact Handler.prepares_check _ fun day => ⟨rfl, fun _ => ⟨rfl,
      works_finishBadDay process day _⟩⟩

theorem ends_renderMetric (day : Date) (metricId : ℕ) {metric : Metric}
    (hbounds : metric.HasBounds) (value : Option Decimal) (session : ℕ)
    (hok : ok = false ↔ metric.metricType = .numeric ∧ ∃ v ∈ value, v.isSignalling = true) :
    (Process.renderMetric day metricId metric value session).Ends ok := by
  show Handler.Ends ok (if _ then _ else _)
  rw [if_neg hbounds]
  cases value with
  | none =>
    cases ok
    · obtain ⟨-, v, hv, -⟩ := hok.mp rfl
      cases hv
    · rfl
  | some value =>
    show Handler.Ends ok (if _ then _ else _)
    rw [Process.shownValue]
    cases ok
    · rw [if_pos (hok.mp rfl)]
      rfl
    · rw [if_neg fun h => Bool.noConfusion (hok.mpr h)]
      rfl

/-- Without a signalling NaN the two values of a change can be compared. -/
theorem comparable_of_not_signallingSave {metricType : MetricType} {entry : Option MetricLog}
    {value : Option Decimal} {now : Moment} {change : RowChange MetricLog Decimal}
    (hchange : metricChange metricType entry value now = .ok change)
    (hsave : ¬ SignallingSave metricType entry value) :
    ∃ equal, optionEq (change.old.map .decimal) (change.new.map .decimal) = some equal := by
  cases entry with
  | none => cases value <;> cases hchange <;> exact ⟨_, eqTellsChange_of_none_left _⟩
  | some entry =>
    cases value with
    | none =>
      cases hchange
      exact ⟨_, eqTellsChange_of_none_right _⟩
    | some v =>
      cases metricType with
      | numeric =>
        cases hchange
        show ∃ equal, Decimal.pyEq entry.value v = some equal
        have hquiet : ¬ (entry.value.isSignalling = true ∨ v.isSignalling = true) := by
          rintro (h | h)
          · exact hsave ⟨rfl, v, rfl, Or.inr ⟨entry, rfl, h⟩⟩
          · exact hsave ⟨rfl, v, rfl, Or.inl h⟩
        rw [Decimal.pyEq, if_neg hquiet]
        split_ifs <;> exact ⟨_, rfl⟩
      | scale =>
        rw [metricChange] at hchange
        split at hchange
        · cases hchange
        · cases hchange
          exact ⟨_, eqTellsChange_of_none_right _⟩
        · cases hchange
          exact ⟨false, by assumption⟩

/-- A save that meets no signalling NaN does not raise once its value is accepted. -/
theorem ends_finishMetric (day : Date) (metricId : ℕ) {metric : Metric}
    (hbounds : metric.HasBounds) {entry : Option MetricLog} {value : Option Decimal} {now : Moment}
    {change : RowChange MetricLog Decimal}
    (hchange : metricChange metric.metricType entry value now = .ok change)
    (hsave : ¬ SignallingSave metric.metricType entry value) (session : ℕ) :
    (process.finishMetric day metricId metric change session).Ends true := by
  have hrender : (Process.renderMetric day metricId metric change.new session).Ends true := by
    refine ends_renderMetric day metricId hbounds _ session ⟨fun h => Bool.noConfusion h, ?_⟩
    rintro ⟨htype, v, hv, hsignalling⟩
    exact (hsave ⟨htype, v, metricChange_values hchange hv, Or.inl hsignalling⟩).elim
  obtain ⟨equal, hequal⟩ := comparable_of_not_signallingSave hchange hsave
  exact ends_currentDay process _ fun _ _ => ends_audit hequal _ _ _ hrender

/-- A save that meets one raises, unless the stored value is read again. -/
theorem ends_finishMetric_signalling (day : Date) (metricId : ℕ) {metric : Metric}
    {entry : Option MetricLog} {value : Option Decimal} {now : Moment}
    {change : RowChange MetricLog Decimal}
    (hchange : metricChange metric.metricType entry value now = .ok change)
    (hsave : SignallingSave metric.metricType entry value) (session : ℕ) :
    (process.finishMetric day metricId metric change session).Ends false := by
  obtain ⟨htype, v, hv, hsignalling⟩ := hsave
  obtain rfl : value = some v := hv
  have hbounds : metric.HasBounds := fun h => by
    rw [htype] at h
    cases h.1
  rw [htype] at hchange
  refine ends_currentDay process _ fun _ today => ?_
  cases entry with
  | none =>
    cases hchange
    have hv : v.isSignalling = true := by
      obtain hv | ⟨e, he, -⟩ := hsignalling
      · exact hv
      · cases he
    refine ends_audit (eqTellsChange_of_none_left _) _ _ _ ?_
    exact ends_renderMetric day metricId hbounds _ session
      ⟨fun _ => ⟨htype, v, rfl, hv⟩, fun _ => rfl⟩
  | some entry =>
    cases hchange
    have heq : optionEq (some (.decimal entry.value)) (some (.decimal v)) = none := by
      show Decimal.pyEq entry.value v = none
      rw [Decimal.pyEq, if_pos]
      rcases hsignalling with hv | ⟨e, he, hentry⟩
      · exact Or.inr hv
      · cases he
        exact Or.inl hentry
    show Handler.Ends false
      (Process.audit session _ (some (.decimal entry.value)) (some (.decimal v)) _ _ _)
    rw [raises_audit heq]
    rfl

/-- **After the first zone lookup a handler ends in the same way, whatever it reads.** -/
theorem program_settles (py : TextParsers) {db : Database}
    (hbounds : ∀ metric ∈ db.metrics, metric.HasBounds) {req : JournalRequest}
    (hok : ok = false ↔ req.MeetsSignalling py db) :
    (process.program py req).Settles db Write.apply ok {} := by
  cases req with
  | markHabit date streakId mark =>
    obtain rfl : ok = true := Bool.eq_true_of_not_eq_false fun h => hok.mp h
    exact Handler.settles_check _ fun day _ => Handler.settles_check _ fun passed _ =>
      Handler.settles_read <| Handler.settles_check _ fun _ _ => Handler.settles_read <|
        Handler.settles_of_ends (ends_finishHabit process day streakId _ _) _
  | markTracker date trackerId =>
    obtain rfl : ok = true := Bool.eq_true_of_not_eq_false fun h => hok.mp h
    exact Handler.settles_check _ fun day _ => Handler.settles_read <|
      Handler.settles_check _ fun _ _ => Handler.settles_read <|
        Handler.settles_of_ends (ends_finishTracker process day trackerId _ _) _
  | saveMetric date metricId text =>
    refine Handler.settles_check _ fun day hday => Handler.settles_read <|
      Handler.settles_check _ fun metric hmetric => Handler.settles_check _ fun value hvalue =>
        Handler.settles_read <| Handler.settles_check _ fun change hchange =>
          Handler.settles_of_ends (Handler.ends_addAll _ _ fun session => ?_) _
    have hmetric : db.getMetric metricId = some metric := foundOr404_eq_ok.mp hmetric
    have hchange : metricChange metric.metricType (db.metricLog.lookup (day, metricId)) value
      process.now = .ok change := hchange
    have hmeets : (JournalRequest.saveMetric date metricId text).MeetsSignalling py db ↔
        SignallingSave metric.metricType (db.metricLog.lookup (day, metricId)) value := by
      constructor
      · rintro ⟨day', metric', value', hday', hmetric', hvalue', hsave⟩
        rw [parseDate_eq_ok, hday'] at hday
        rw [hmetric', Option.some.injEq] at hmetric
        obtain rfl := Option.some.inj hday
        subst hmetric
        rw [hvalue', Except.ok.injEq] at hvalue
        subst hvalue
        exact hsave
      · exact fun hsave => ⟨day, metric, value, parseDate_eq_ok.mp hday, hmetric, hvalue, hsave⟩
    rw [hmeets] at hok
    cases ok with
    | false => exact ends_finishMetric_signalling process day metricId hchange (hok.mp rfl) session
    | true =>
      exact ends_finishMetric process day metricId
        (hbounds metric (List.mem_of_find?_eq_some hmetric)) hchange
        (fun h => Bool.noConfusion (hok.mpr h)) session
  | toggleBadDay date =>
    obtain rfl : ok = true := Bool.eq_true_of_not_eq_false fun h => hok.mp h
    exact Handler.settles_check _ fun day _ => Handler.settles_read <|
      Handler.settles_of_ends (ends_finishBadDay process day _ _) _

end Discipline

/-! ## What is due -/

/-- An edit that writes its event row has something to write. -/
theorem editWrites_ne_nil {event : List Write} (h : event ≠ []) (target : AuditTarget)
    (old new : Option AuditValue) (day : Date) (clock : Clock) (recomputed : Database → List Write)
    (db : Database) : editWrites target old new day clock event recomputed db ≠ .ok [] := by
  rw [editWrites]
  cases auditRows target old new day clock.today with
  | error e =>
    intro h
    cases h
  | ok rows =>
    intro hnil
    have hparts := List.append_eq_nil_iff.mp (Except.ok.inj hnil)
    exact h (List.append_eq_nil_iff.mp hparts.1).1

theorem strip_eq_empty_of_parse {py : TextParsers} {metric : Metric} {text : String}
    (h : parseMetricValue py metric text = .ok none) : py.strip text = "" := by
  by_contra hblank
  rw [parseMetricValue, if_neg hblank] at h
  cases hvalue : py.decimal (py.strip text) with
  | none =>
    rw [hvalue] at h
    cases h
  | some value =>
    rw [hvalue] at h
    cases hscale : checkScale metric value <;> cases htype : metric.metricType <;>
      simp [hscale, htype, Except.map] at h

/-- **Which requests have nothing to write.** -/
theorem dueWrites_eq_nil_iff (py : TextParsers) (clock : Clock) (db : Database)
    (req : JournalRequest) :
    dueWrites py clock db req = .ok [] ↔ req.SavesNothing py db := by
  cases req with
  | markHabit date streakId mark =>
    refine ⟨fun h => ?_, False.elim⟩
    obtain ⟨day, -, h⟩ := bind_eq_ok.mp h
    obtain ⟨passed, -, h⟩ := bind_eq_ok.mp h
    obtain ⟨streak, -, h⟩ := bind_eq_ok.mp h
    exact editWrites_ne_nil (List.cons_ne_nil _ _) _ _ _ _ _ _ _ h
  | markTracker date trackerId =>
    refine ⟨fun h => ?_, False.elim⟩
    obtain ⟨day, -, h⟩ := bind_eq_ok.mp h
    obtain ⟨tracker, -, h⟩ := bind_eq_ok.mp h
    exact editWrites_ne_nil (List.cons_ne_nil _ _) _ _ _ _ _ _ _ h
  | saveMetric date metricId text =>
    constructor
    · intro h
      obtain ⟨day, hday, h⟩ := bind_eq_ok.mp h
      obtain ⟨metric, hmetric, h⟩ := bind_eq_ok.mp h
      obtain ⟨value, hvalue, h⟩ := bind_eq_ok.mp h
      obtain ⟨change, hchange, h⟩ := bind_eq_ok.mp h
      have hnone : db.metricLog.lookup (day, metricId) = none ∧ change.row = none := by
        by_contra hsome
        refine editWrites_ne_nil ?_ _ _ _ _ _ _ _ h
        rw [metricWrites, if_neg hsome]
        exact List.cons_ne_nil _ _
      rw [hnone.1] at hchange
      cases value with
      | some v =>
        cases hchange
        cases hnone.2
      | none =>
        exact ⟨day, metric, parseDate_eq_ok.mp hday, foundOr404_eq_ok.mp hmetric,
          strip_eq_empty_of_parse hvalue, hnone.1⟩
    · rintro ⟨day, metric, hday, hmetric, hblank, hentry⟩
      have hvalue : parseMetricValue py metric text = .ok none := by
        rw [parseMetricValue, if_pos hblank]
      refine bind_eq_ok.mpr ⟨day, parseDate_eq_ok.mpr hday, bind_eq_ok.mpr ⟨metric,
        foundOr404_eq_ok.mpr hmetric, bind_eq_ok.mpr ⟨none, hvalue, bind_eq_ok.mpr
          ⟨⟨none, none, none⟩, by rw [hentry]; rfl, ?_⟩⟩⟩⟩
      show editWrites (metricTarget day metricId) none none day clock (metricWrites day metricId
        (db.metricLog.lookup (day, metricId)) none) (fun _ => []) db = .ok []
      rw [editWrites, auditRows_eq_due (eqTellsChange_of_none_left none), metricWrites,
        if_pos ⟨hentry, rfl⟩]
      rfl
  | toggleBadDay date =>
    refine ⟨fun h => ?_, False.elim⟩
    obtain ⟨day, -, h⟩ := bind_eq_ok.mp h
    exact editWrites_ne_nil (List.cons_ne_nil _ _) _ _ _ _ _ _ _ h

/-- An edit of a yes or no does not fail. -/
theorem editWrites_map_bool_ne_error (target : AuditTarget) (old new : Option Bool) (day : Date)
    (clock : Clock) (event : List Write) (recomputed : Database → List Write) (db : Database)
    (e : Failure) : editWrites target (old.map .bool) (new.map .bool) day clock event recomputed
      db ≠ .error e := by
  rw [editWrites, auditRows_eq_due (eqTellsChange_map_bool old new)]
  intro h
  cases h

theorem refresh_notMem_query_cons {l : List ReadKind} (h : ReadKind.refresh ∉ l) :
    ReadKind.refresh ∉ ReadKind.query :: l :=
  List.not_mem_cons_of_ne_of_not_mem (by decide) h

/-- Only an audit of values that cannot be compared fails. -/
theorem optionEq_of_auditRows_eq_error {target : AuditTarget} {old new : Option AuditValue}
    {day today : Date} {e : Failure} (h : auditRows target old new day today = .error e) :
    ∃ value, old = some value ∧ optionEq (some value) new = none := by
  rw [auditRows] at h
  split_ifs at h
  cases heq : optionEq old new with
  | some equal => cases equal <;> simp [heq] at h
  | none =>
    cases old with
    | none => cases new <;> cases heq
    | some value => exact ⟨value, rfl, heq⟩

/-- A save whose values cannot be compared raises before it commits. -/
theorem raises_finishMetric (process : Process) (day : Date) (metricId : ℕ) (metric : Metric)
    {change : RowChange MetricLog Decimal} {today : Date} {e : Failure}
    (h : auditRows (metricTarget day metricId) (change.old.map .decimal)
      (change.new.map .decimal) day today = .error e) (session : ℕ) :
    (process.finishMetric day metricId metric change session).Raises := by
  obtain ⟨value, hold, heq⟩ := optionEq_of_auditRows_eq_error h
  refine currentDay_of_guarded process (P := Handler.Raises) (fun _ h => h) _ fun _ today => ?_
  rw [hold, raises_audit heq]
  exact trivial

/-- A request that fails by itself reads nothing again: it does not come to its commit. -/
theorem refresh_notMem_reads (process : Process) (py : TextParsers) (db : Database)
    {req : JournalRequest} {e : Failure} (h : dueWrites py (process.clock db) db req = .error e) :
    ReadKind.refresh ∉ reads db Write.apply (process.program py req) {} := by
  cases req with
  | markHabit date streakId mark =>
    rw [Process.program, Process.markHabit]
    rcases bind_eq_error.mp h with hday | ⟨day, hday, h⟩
    · rw [hday]
      exact List.not_mem_nil
    rcases bind_eq_error.mp h with hmark | ⟨passed, hmark, h⟩
    · rw [hday, hmark]
      exact List.not_mem_nil
    rcases bind_eq_error.mp h with hstreak | ⟨streak, hstreak, h⟩
    · rw [hday, hmark]
      refine refresh_notMem_query_cons ?_
      show _ ∉ reads _ _ (Handler.check (foundOr404 (db.getStreak streakId)) _) _
      rw [hstreak]
      exact List.not_mem_nil
    exact absurd h (editWrites_map_bool_ne_error _ _ _ _ _ _ _ _ _)
  | markTracker date trackerId =>
    rw [Process.program, Process.markTracker]
    rcases bind_eq_error.mp h with hday | ⟨day, hday, h⟩
    · rw [hday]
      exact List.not_mem_nil
    rcases bind_eq_error.mp h with htracker | ⟨tracker, htracker, h⟩
    · rw [hday]
      refine refresh_notMem_query_cons ?_
      show _ ∉ reads _ _ (Handler.check (foundOr404 (db.getTracker trackerId)) _) _
      rw [htracker]
      exact List.not_mem_nil
    exact absurd h (editWrites_map_bool_ne_error _ _ _ _ _ _ _ _ _)
  | saveMetric date metricId text =>
    rw [Process.program, Process.saveMetric]
    rcases bind_eq_error.mp h with hday | ⟨day, hday, h⟩
    · rw [hday]
      exact List.not_mem_nil
    rw [hday]
    refine refresh_notMem_query_cons ?_
    show _ ∉ reads _ _ (Handler.check (foundOr404 (db.getMetric metricId)) _) _
    rcases bind_eq_error.mp h with hmetric | ⟨metric, hmetric, h⟩
    · rw [hmetric]
      exact List.not_mem_nil
    rw [hmetric]
    show _ ∉ reads _ _ (Handler.check (parseMetricValue py metric text) _) _
    rcases bind_eq_error.mp h with hvalue | ⟨value, hvalue, h⟩
    · rw [hvalue]
      exact List.not_mem_nil
    rw [hvalue]
    refine refresh_notMem_query_cons ?_
    show _ ∉ reads _ _ (Handler.check (metricChange metric.metricType
      (db.metricLog.lookup (day, metricId)) value (process.clock db).now) _) _
    rcases bind_eq_error.mp h with hchange | ⟨change, hchange, h⟩
    · rw [hchange]
      exact List.not_mem_nil
    rw [hchange]
    refine Handler.refresh_notMem_of_raises (Handler.raises_addAll _ _ fun session => ?_) _
    rw [editWrites] at h
    cases haudit : auditRows (metricTarget day metricId) (change.old.map .decimal)
        (change.new.map .decimal) day (process.clock db).today with
    | error e => exact raises_finishMetric process day metricId metric haudit session
    | ok rows =>
      rw [haudit] at h
      cases h
  | toggleBadDay date =>
    rw [Process.program, Process.toggleBadDay]
    rcases bind_eq_error.mp h with hday | ⟨day, hday, h⟩
    · rw [hday]
      exact List.not_mem_nil
    exact absurd h (editWrites_map_bool_ne_error _ _ _ _ _ _ _ _ _)

/-! ## The failing read -/

/-- **When an answer tells what is stored.**  A read of a journal request fails, whichever it
is, in any state of the database and of the process.  A successful answer means that exactly the
rows that the request has to write are committed, and any other answer that none is, if and only
if the failing read is a query of the handler (or is not made), or the request has nothing to
write, or the read is a zone lookup and the request meets a signalling NaN, on which it fails
all the same. -/
theorem stored_answer_iff (process : Process) (py : TextParsers) (db : Database)
    (hbounds : ∀ metric ∈ db.metrics, metric.HasBounds) (req : JournalRequest) (k : ℕ) :
    Honest (dueWrites py (process.clock db) db req)
        (exec db Write.apply .raised (process.program py req) (some k) {}) ↔
      Harmless (req.SavesNothing py db) (req.MeetsSignalling py db)
        ((reads db Write.apply (process.program py req) {})[k]?) := by
  have hok : ∃ ok : Bool, ok = false ↔ req.MeetsSignalling py db := by
    by_cases h : req.MeetsSignalling py db
    · exact ⟨false, fun _ => h, fun _ => rfl⟩
    · exact ⟨true, fun ht => Bool.noConfusion ht, fun hm => (h hm).elim⟩
  obtain ⟨ok, hok⟩ := hok
  rw [honest_iff (program_prepares process py req) (program_settles process py hbounds hok)
    (exec_program process db py hbounds req)
    (fun e he => refresh_notMem_reads process py db he) k, dueWrites_eq_nil_iff, hok]

/-- A new install: nothing recorded, and no settings saved yet. -/
def newInstall : Database := { streaks := [{ id := 1 }], metrics := [newMetric 1 .scale] }

/-- A process at noon of 2026-01-05 that has not read a zone yet. -/
def newProcess : Process where
  zoneNamed _ := none
  tz := utcZone
  cached := none
  now := daysToMicroseconds 739621 + 43200000000

/-- The first query of a save fails. -/
theorem stored_answer_iff_firstQuery :
    Honest (dueWrites asciiParsers (newProcess.clock newInstall) newInstall
        (.saveMetric "2026-01-05" 1 "4"))
      (exec newInstall Write.apply .raised
        (newProcess.program asciiParsers (.saveMetric "2026-01-05" 1 "4")) (some 0) {}) :=
  (stored_answer_iff newProcess asciiParsers newInstall
    (by
      rintro metric hmetric
      obtain rfl := List.mem_singleton.mp hmetric
      exact newMetric_hasBounds 1 .scale)
    (.saveMetric "2026-01-05" 1 "4") 0).mpr trivial

/-- **A mark that is answered with success and not stored.**  The third read of the request, the
first lookup of the zone, fails. -/
theorem lost_mark_answers_success :
    let req := JournalRequest.markHabit "2026-01-05" 1 "pass"
    let run := exec newInstall Write.apply .raised (newProcess.program asciiParsers req) (some 2) {}
    run.answer = .ok () ∧ run.committed = [] ∧
      dueWrites asciiParsers (newProcess.clock newInstall) newInstall req =
        .ok [.habit 739621 1 (some ⟨true, none⟩),
          .streakState 1 ⟨1, 1, none, newProcess.now⟩] :=
  ⟨rfl, rfl, rfl⟩

end EpsCloud
