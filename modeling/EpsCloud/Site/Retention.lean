import EpsCloud.Site.References

/-!
# How long the audit is kept

Every edit appends its rows to `edit_log`, and `cleanup_audit_log` drops the rows past the
retention window.  The jobs and the requests come in any order.

* `Site.written`: the rows that a request appends.
* `Site.WrittenInTime`: nothing is written with a time that an earlier cleanup drops.
* `datedLog_after`: what a request does to the audit.
* `audit_after_run`: the audit after any run.
-/

namespace EpsCloud

/-- The time before which a job drops rows, if it does. -/
def SiteRequest.cutoff? (req : SiteRequest) : Option Moment :=
  match req.act with
  | .cleanupAuditLog => some (req.now - daysToMicroseconds auditRetentionDays)
  | _ => none

/-- The times before which the jobs of a run drop rows. -/
def cutoffs (reqs : List SiteRequest) : List Moment := reqs.filterMap SiteRequest.cutoff?

/-- A row that no job of a run drops. -/
def Retained (reqs : List SiteRequest) (row : Moment × EditLog) : Prop :=
  ∀ cutoff ∈ cutoffs reqs, cutoff ≤ row.1

instance (reqs : List SiteRequest) (row : Moment × EditLog) : Decidable (Retained reqs row) :=
  inferInstanceAs (Decidable (∀ cutoff ∈ cutoffs reqs, _))

namespace Site

variable {s s' : Site} {env : SiteEnv} {req : SiteRequest}

/-- The rows of the audit that a request writes, each with the time of its transaction. -/
def written (env : SiteEnv) (s : Site) (req : SiteRequest) : List (Moment × EditLog) :=
  ((s.after env req).db.editLog.drop s.db.editLog.length).map (Prod.mk req.dbNow)

/-- All rows that the requests of a run write. -/
def everWritten (env : SiteEnv) (s : Site) (reqs : List SiteRequest) : List (Moment × EditLog) :=
  (Runs.trace (Site.after env) s reqs).flatMap fun x => x.1.written env x.2

/-- No row of a run is written with a time that an earlier cleanup drops. -/
def WrittenInTime (env : SiteEnv) (s : Site) (reqs : List SiteRequest) : Prop :=
  (Runs.trace (Site.after env) s reqs).Pairwise fun earlier later =>
    ∀ cutoff ∈ earlier.2.cutoff?, ∀ row ∈ later.1.written env later.2, cutoff ≤ row.1

instance (env : SiteEnv) (s : Site) (reqs : List SiteRequest) :
    Decidable (WrittenInTime env s reqs) :=
  inferInstanceAs (Decidable (List.Pairwise _ _))

/-! ## One request -/

/-- New rows at the end, all of one time. -/
theorem datedLog_append (h : s.Sound) (dbNow : Moment) (rows : List EditLog) :
    (s.auditTimes ++ List.replicate rows.length dbNow).zip (s.db.editLog ++ rows) =
      s.datedLog ++ rows.map (Prod.mk dbNow) := by
  rw [List.zip_append h.times, datedLog]
  congr 1
  induction rows with
  | nil => rfl
  | cons row rows ih => exact congrArg (List.cons (dbNow, row)) ih

theorem datedLog_store (h : s.Sound) (dbNow : Moment) {db : Database} (hdb : Linked s db) :
    (s.store dbNow db).datedLog =
      s.datedLog ++ (db.editLog.drop s.db.editLog.length).map (Prod.mk dbNow) := by
  obtain ⟨rows, hrows⟩ := hdb.log
  rw [datedLog, store, ← hrows, List.length_append, Nat.add_sub_cancel_left,
    List.drop_left]
  exact datedLog_append h dbNow rows

/-- A request that drops nothing only appends. -/
theorem datedLog_does (h : s.Sound) (hdoes : Does s req s') (hact : req.act ≠ .cleanupAuditLog) :
    s'.datedLog =
      s.datedLog ++ (s'.db.editLog.drop s.db.editLog.length).map (Prod.mk req.dbNow) := by
  have hsame : s.db.editLog.drop s.db.editLog.length = [] := List.drop_length
  cases hdoes with
  | store db hdb => exact datedLog_store h req.dbNow hdb
  | warm db hwarms =>
    obtain ⟨cache, rfl⟩ := hwarms.frame
    rw [hsame, List.map_nil, List.append_nil]
    rfl
  | cleanup hcleanup => exact absurd hcleanup hact
  | nothing => rw [hsame, List.map_nil, List.append_nil]
  | addStreak text =>
    rw [hsame, List.map_nil, List.append_nil]
    rfl
  | addMetric type text =>
    rw [hsame, List.map_nil, List.append_nil]
    rfl
  | saveFetchTimes times =>
    rw [openSettings, hsame, List.map_nil, List.append_nil]
    rfl

theorem zip_map_fst_snd {α β : Type} (rows : List (α × β)) :
    (rows.map Prod.fst).zip (rows.map Prod.snd) = rows := by
  rw [List.zip_map', List.map_id'' fun _ => rfl]

/-- The rows that a cleanup keeps are those of the audit that are not too old. -/
theorem datedLog_cleanupAuditLog (s : Site) (now : Moment) :
    (cleanupAuditLog now s).datedLog =
      s.datedLog.filter fun row => now - daysToMicroseconds auditRetentionDays ≤ row.1 :=
  zip_map_fst_snd _

theorem written_cleanupAuditLog (hact : req.act = .cleanupAuditLog) : s.written env req = [] := by
  have hlength : (cleanupAuditLog req.now s).db.editLog.length ≤ s.db.editLog.length := by
    refine (List.length_map _).trans_le ((List.length_filter_le _ _).trans ?_)
    rw [datedLog, List.length_zip]
    exact Nat.min_le_right _ _
  rw [written, Site.after, handleSite, hact, List.drop_eq_nil_of_le hlength, List.map_nil]

/-- **What a request does to the audit**: its rows come last, and a cleanup drops the old ones. -/
theorem datedLog_after (h : s.Sound) (req : SiteRequest) :
    (s.after env req).datedLog =
      (s.datedLog ++ s.written env req).filter (Retained [req]) := by
  by_cases hact : req.act = .cleanupAuditLog
  · have hafter : s.after env req = cleanupAuditLog req.now s := by
      rw [Site.after, handleSite, hact]
    rw [hafter, datedLog_cleanupAuditLog, written_cleanupAuditLog hact, List.append_nil]
    simp [Retained, cutoffs, SiteRequest.cutoff?, hact]
  · have hnone : req.cutoff? = none := by
      rw [SiteRequest.cutoff?]
      split
      · exact absurd ‹_› hact
      · rfl
    rw [datedLog_does h (does_after h.linked req) hact, ← written]
    simp [Retained, cutoffs, hnone]

end Site

/-! ## Runs -/

theorem retained_cons {req : SiteRequest} {reqs : List SiteRequest} {row : Moment × EditLog} :
    Retained (req :: reqs) row ↔ Retained reqs row ∧ Retained [req] row := by
  simp only [Retained, cutoffs, List.filterMap_cons, List.filterMap_nil]
  cases req.cutoff? <;> simp [and_comm]

/-- **The audit keeps each row for 180 days, and no row longer than a cleanup lets it.**  After
any run of requests and jobs it has the rows that it started with and every row that was ever
written, in their order, without those that were too old at one of the cleanups.  The clocks may
differ and go back, as long as nothing is written with a time that an earlier cleanup dropped. -/
theorem audit_after_run (env : SiteEnv) (s : Site) (h : s.Sound) (reqs : List SiteRequest)
    (hwritten : s.WrittenInTime env reqs) :
    (reqs.foldl (Site.after env) s).datedLog =
      (s.datedLog ++ s.everWritten env reqs).filter (Retained reqs) := by
  induction reqs generalizing s with
  | nil => simp [Site.everWritten, Retained, cutoffs]
  | cons req reqs ih =>
    rw [Site.WrittenInTime, Runs.trace_cons] at hwritten
    obtain ⟨hfirst, hrest⟩ := List.pairwise_cons.mp hwritten
    -- what is written later is not what this request drops
    have hlater : ∀ row ∈ (s.after env req).everWritten env reqs, Retained [req] row := by
      intro row hrow cutoff hcutoff
      obtain ⟨later, hmem, hlater⟩ := List.mem_flatMap.mp hrow
      exact hfirst later hmem cutoff (by simpa [cutoffs] using hcutoff) row hlater
    have hsplit : s.everWritten env (req :: reqs) =
        s.written env req ++ (s.after env req).everWritten env reqs := rfl
    have hkept : (s.datedLog ++ s.written env req).filter (Retained (req :: reqs)) =
        ((s.datedLog ++ s.written env req).filter (Retained [req])).filter (Retained reqs) := by
      rw [List.filter_filter]
      exact List.filter_congr fun row _ =>
        (decide_eq_decide.mpr retained_cons).trans (Bool.decide_and _ _)
    have hkeeps : ((s.after env req).everWritten env reqs).filter (Retained (req :: reqs)) =
        ((s.after env req).everWritten env reqs).filter (Retained reqs) :=
      List.filter_congr fun row hrow =>
        decide_eq_decide.mpr (retained_cons.trans (and_iff_left (hlater row hrow)))
    rw [List.foldl_cons, ih _ (h.after req).sound hrest, Site.datedLog_after h, hsplit,
      ← List.append_assoc, List.filter_append, List.filter_append (s.datedLog ++ _), hkept,
      hkeeps]

/-- A day that was called bad, half a year ago and again now, with a cleanup between and a request
after it that finds nothing, by a clock that is behind. -/
theorem audit_after_run_cleaned :
    let s : Site := {}
    let today := ymd2ord 2024 1 1
    let later := daysToMicroseconds 200
    let reqs : List SiteRequest := [⟨today, 0, 0, .journal (.toggleBadDay "2023-12-31")⟩,
      ⟨today + 200, later, later, .cleanupAuditLog⟩,
      ⟨today + 200, later, 0, .journal (.markHabit "2023-12-31" 7 "pass")⟩,
      ⟨today + 200, later, later, .journal (.toggleBadDay "2023-12-31")⟩]
    (s.everWritten .plain reqs).map Prod.fst = [0, later] ∧
      (reqs.foldl (Site.after .plain) s).datedLog =
        (s.datedLog ++ s.everWritten .plain reqs).filter (Retained reqs) := by
  intro s today later reqs
  exact ⟨by decide +kernel, audit_after_run .plain s Site.sound_new reqs (by decide +kernel)⟩

end EpsCloud
