import EpsCloud.Site.References

/-!
# What is deleted stays deleted

`delete_task` and `delete_tracker` delete a row with everything that refers to it.  The
sequences do not go back, so no later row takes the id of one that was deleted, and what an open
page still posts about it is not found.

* `SiteAct.About`: the requests about a task or a tracker.
* `Site.not_found`: what a request about a deleted one answers.
* `deleted_stays_gone`: from the deletion on, over every run.
-/

namespace EpsCloud

open KeySort

/-- The task or the tracker is there. -/
def Database.Has (db : Database) : Item → Prop
  | .task k => IdIn Task.id db.tasks k
  | .tracker k => IdIn Tracker.id db.trackers k

/-- A row is the item or refers to it.  The audit names its targets in words, and is not meant:
its rows stay. -/
def Database.Mentions (db : Database) : Item → Prop
  | .task k => IdIn Task.id db.tasks k ∨ ∃ e ∈ db.taskEvents, e.taskId = k
  | .tracker k => IdIn Tracker.id db.trackers k ∨
      (∃ date, (db.trackerEvents.lookup (date, k)).isSome) ∨ (db.trackerState.lookup k).isSome

/-- The id was given, and its row is not there any more. -/
def Database.Gone (db : Database) : Item → Prop
  | .task k => k < db.taskSeq ∧ ¬ db.Has (.task k)
  | .tracker k => k < db.trackerSeq ∧ ¬ db.Has (.tracker k)

namespace SiteAct

/-- The request that deletes an item. -/
def delete : Item → SiteAct
  | .task k => .deleteTask k
  | .tracker k => .deleteTracker k

/-- The requests that name an item in their address or in a form. -/
inductive About : Item → SiteAct → Prop
  | delete (item : Item) : About item (.delete item)
  | move (item : Item) (direction : Direction) : About item (.moveItem item.text direction.text)
  | toggleTask (k : ℕ) : About (.task k) (.task (.toggle k))
  | vital (k : ℕ) : About (.task k) (.task (.vital k))
  | reschedule (k : ℕ) (form : TaskForm) : About (.task k) (.task (.reschedule k form))
  | keep (k : ℕ) : About (.task k) (.task (.keep k))
  | archive (k : ℕ) : About (.task k) (.task (.archive k))
  | toggleTracker (k : ℕ) : About (.tracker k) (.toggleTracker k)
  | editTracker (k : ℕ) (thresholdDays : String) (visibleOnDays : List String) :
      About (.tracker k) (.editTracker k thresholdDays visibleOnDays)
  | markTracker (date : String) (k : ℕ) : About (.tracker k) (.journal (.markTracker date k))

end SiteAct

/-! ## What is not there is not found -/

section

variable {db : Database}

theorem getTask_eq_none {k : ℕ} (h : ¬ db.Has (.task k)) : db.getTask k = none := by
  cases htask : db.getTask k with
  | none => rfl
  | some task => exact absurd ⟨task, mem_of_getTask htask⟩ h

theorem getTracker_eq_none {k : ℕ} (h : ¬ db.Has (.tracker k)) : db.getTracker k = none := by
  cases htracker : db.getTracker k with
  | none => rfl
  | some tracker => exact absurd ⟨tracker, mem_of_getTracker htracker⟩ h

theorem commitEdit_of_not_has {k : ℕ} (h : ¬ db.Has (.task k)) (stamp : Stamp)
    (edit : Task → Except Failure TaskEdit) :
    commitEdit stamp k edit db = .error (.abort 404) := by
  rw [commitEdit, getTask_eq_none h]
  rfl

/-- A row of the day list is one of a task or a tracker that is there. -/
theorem has_of_item? {today : Date} {now : Moment} {row : Row} {item : Item}
    (hrow : row ∈ dayList db today now) (hitem : row.item? = some item) : db.Has item := by
  have hident := Row.item?_eq_some.mp hitem
  rw [dayList_eq, (sortByKey_perm effectiveKey _).mem_iff, baseRows] at hrow
  rcases List.mem_append.mp hrow with hrow | hrow
  · rcases List.mem_append.mp hrow with hrow | hrow
    · obtain ⟨task, htask, hrow⟩ := List.mem_filterMap.mp hrow
      rw [ident_of_dayTask hrow] at hident
      rw [← Sum.inl.inj hident]
      exact ⟨task, (mem_openTasks.mp htask).1, rfl⟩
    · obtain ⟨event, -, rfl⟩ := List.mem_map.mp hrow
      cases hident
  · obtain ⟨tracker, htracker, hrow⟩ := List.mem_filterMap.mp hrow
    rw [ident_of_dayTracker hrow] at hident
    rw [← Sum.inl.inj hident]
    exact ⟨tracker, List.mem_of_mem_filter htracker, rfl⟩

theorem moveItem_of_not_has {item : Item} (h : ¬ db.Has item) (direction : Direction)
    (today : Date) (now : Moment) :
    moveItem item.text direction.text today now db = .error (.abort 404) :=
  moveItem_of_notMem (fun _ hrow hitem => h (has_of_item? hrow hitem)) direction

/-- The date of the address comes first, and a text that is no day is not found either. -/
theorem markTracker_of_not_has {k : ℕ} (h : ¬ db.Has (.tracker k)) (clock : Clock)
    (date : String) : markTracker clock date k db = .error (.abort 404) := by
  rw [markTracker, getTracker_eq_none h, parseDate]
  cases fromisoformat date <;> rfl

end

namespace Site

variable {s : Site} {env : SiteEnv} {item : Item}

/-- **A request about what is not there is not found**, and changes nothing. -/
theorem not_found (h : ¬ s.db.Has item) {req : SiteRequest} (hreq : req.act.About item) :
    handleSite env req s = (s, .error (.abort 404)) := by
  obtain ⟨today, now, dbNow, act⟩ := req
  have hstore : ∀ {result : Except Failure Database}, result = .error (.abort 404) →
      s.commit (result.map (s.store dbNow)) = (s, .error (.abort 404)) := by
    rintro _ rfl
    rfl
  cases hreq with
  | delete =>
    cases item with
    | task k =>
      refine hstore ?_
      rw [deleteTask, getTask_eq_none h]
      rfl
    | tracker k =>
      refine hstore ?_
      rw [deleteTracker, getTracker_eq_none h]
      rfl
  | move _ direction => exact hstore (moveItem_of_not_has h direction today now)
  | toggleTask k => exact hstore (commitEdit_of_not_has h _ _)
  | vital k => exact hstore (commitEdit_of_not_has h _ _)
  | reschedule k form => exact hstore (commitEdit_of_not_has h _ _)
  | keep k => exact hstore (commitEdit_of_not_has h _ _)
  | archive k => exact hstore (commitEdit_of_not_has h _ _)
  | toggleTracker k =>
    refine hstore ?_
    rw [toggleTracker, getTracker_eq_none h]
    rfl
  | editTracker k thresholdDays visibleOnDays =>
    refine hstore ?_
    rw [editTracker, getTracker_eq_none h]
    rfl
  | markTracker date k => exact hstore (markTracker_of_not_has h _ date)

/-! ## What is gone -/

/-- Nothing refers to a row that is not there. -/
theorem Sound.not_mentions (h : s.Sound) (hnot : ¬ s.db.Has item) : ¬ s.db.Mentions item := by
  cases item with
  | task k =>
    rintro (htask | ⟨e, he, rfl⟩)
    · exact hnot htask
    · exact hnot (h.linked.tasks.events e he)
  | tracker k =>
    rintro (htracker | ⟨date, hevent⟩ | hstate)
    · exact hnot htracker
    · exact hnot (h.linked.trackers.events (date, k) hevent)
    · exact hnot ((h.linked.trackers.states k).mp hstate)

theorem not_has_of_gone (hgone : s.db.Gone item) : ¬ s.db.Has item := by
  cases item with
  | task k => exact hgone.2
  | tracker k => exact hgone.2

/-- No request brings it back: a new row has an id that was not given before. -/
theorem Sound.gone_after (h : s.Sound) (hgone : s.db.Gone item) (req : SiteRequest) :
    (s.after env req).db.Gone item := by
  have hkeeps : s.Keeps (s.after env req) := h.after req
  cases item with
  | task k =>
    exact ⟨hgone.1.trans_le hkeeps.tasks.le, hkeeps.tasks.not_idIn hgone.1 hgone.2⟩
  | tracker k =>
    exact ⟨hgone.1.trans_le hkeeps.trackers.le, hkeeps.trackers.not_idIn hgone.1 hgone.2⟩

/-- A handler that commits once has made the database that it leaves. -/
theorem commit_store_ok {dbNow : Moment} {result : Except Failure Database}
    (hok : (s.commit (result.map (s.store dbNow))).2 = .ok ()) :
    ∃ db, result = .ok db ∧ (s.commit (result.map (s.store dbNow))).1.db = db := by
  cases result with
  | error e => cases hok
  | ok db => exact ⟨db, rfl, rfl⟩

/-- What a deletion leaves when it succeeds. -/
theorem Sound.gone_of_delete (h : s.Sound) {req : SiteRequest} (hact : req.act = .delete item)
    (hok : (handleSite env req s).2 = .ok ()) : (s.after env req).db.Gone item := by
  obtain ⟨today, now, dbNow, act⟩ := req
  obtain rfl := hact
  cases item with
  | task k =>
    obtain ⟨db, hresult, hdb⟩ := commit_store_ok hok
    obtain ⟨⟨task, htask⟩, rfl⟩ := deleteTask_eq_ok.mp hresult
    obtain ⟨hmem, rfl⟩ := mem_of_getTask htask
    refine hdb ▸ ⟨h.linked.tasks.ids.below task hmem, fun hhas => ?_⟩
    exact (idIn_delete_iff.mp hhas).2 rfl
  | tracker k =>
    obtain ⟨db, hresult, hdb⟩ := commit_store_ok hok
    obtain ⟨⟨tracker, htracker⟩, rfl⟩ := deleteTracker_eq_ok.mp hresult
    obtain ⟨hmem, rfl⟩ := mem_of_getTracker htracker
    refine hdb ▸ ⟨h.linked.trackers.ids.below tracker hmem, fun hhas => ?_⟩
    exact (idIn_delete_iff.mp hhas).2 rfl

end Site

/-- **What is deleted stays deleted.**  After a deletion that succeeded, and whatever is
requested from then on, no row is the item or refers to it, and every request about it is not
found and changes nothing. -/
theorem deleted_stays_gone (env : SiteEnv) (s : Site) (h : s.Sound) (item : Item)
    (deletion : SiteRequest) (hact : deletion.act = .delete item)
    (hok : (handleSite env deletion s).2 = .ok ()) (reqs : List SiteRequest) :
    let later := reqs.foldl (Site.after env) (s.after env deletion)
    ¬ later.db.Mentions item ∧
      ∀ req : SiteRequest, req.act.About item →
        handleSite env req later = (later, .error (.abort 404)) := by
  intro later
  have hlater : later.Sound ∧ later.db.Gone item :=
    Runs.foldl_invariant (I := fun s : Site => s.Sound ∧ s.db.Gone item) (C := fun _ _ => True)
      (fun s req hs _ => ⟨(hs.1.after req).sound, hs.1.gone_after hs.2 req⟩)
      ⟨(h.after deletion).sound, h.gone_of_delete hact hok⟩ fun _ _ => trivial
  have hnot := Site.not_has_of_gone hlater.2
  exact ⟨hlater.1.not_mentions hnot, fun req hreq => Site.not_found hnot hreq⟩

/-- A tracker is added, marked, and deleted; the form to edit it is still open somewhere. -/
theorem deleted_stays_gone_tracker :
    let clocks := SiteRequest.mk (ymd2ord 2024 5 1) 0 0
    let s := ([.addTracker "Water the plants" "7" [], .toggleTracker 1].map clocks).foldl
      (Site.after .plain) {}
    let later := ([.addTracker "Descale" "30" []].map clocks).foldl (Site.after .plain)
      (s.after .plain (clocks (.deleteTracker 1)))
    s.db.Mentions (.tracker 1) ∧ ¬ later.db.Mentions (.tracker 1) ∧
      handleSite .plain (clocks (.editTracker 1 "14" [])) later = (later, .error (.abort 404)) := by
  intro clocks s later
  have hs : s.Sound := (((Site.sound_new.after _).sound).after _).sound
  have hgone := deleted_stays_gone .plain s hs (.tracker 1) (clocks (.deleteTracker 1)) rfl
    (by decide +kernel) ([.addTracker "Descale" "30" []].map clocks)
  exact ⟨.inr (.inr (by decide +kernel)), hgone.1, hgone.2 _ (.editTracker 1 "14" [])⟩

end EpsCloud
