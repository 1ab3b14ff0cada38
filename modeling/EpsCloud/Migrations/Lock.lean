import EpsCloud.Library.Processes

/-!
# The migration lock

`app.migration_lock`: a migration takes a PostgreSQL advisory lock before it runs and
gives it back afterwards.  The lock is polled, and every attempt is a statement of
its own that is committed at once, so the other processes run between any two
statements.  A session-level lock belongs to the session that took it until that
session unlocks it; commits and rollbacks leave it alone.

* `owned_of_exec`: in every interleaving the lock belongs to the process that is
  between its successful attempt and its unlock, and to no other one.
* `history_of_exec`: what a process has done by the time it is at a place of the
  code.
* `migrations_are_exclusive`: at most one body runs at any time, who gives up has
  run nothing and released nothing, every process makes an attempt, and the lock is
  free again after the holder's body has ended.
-/

namespace EpsCloud

open Processes

/-! ## The advisory lock -/

/-- A session-level advisory lock: the session that holds it, and how often it has taken it
again. -/
abbrev AdvisoryLock (ι : Type*) := Option (ι × ℕ)

namespace AdvisoryLock

variable {ι : Type*} [DecidableEq ι]

/-- `pg_try_advisory_lock` -/
def tryLock (lock : AdvisoryLock ι) (session : ι) : AdvisoryLock ι × Bool :=
  match lock with
  | none => (some (session, 0), true)
  | some (holder, again) =>
    if holder = session then (some (holder, again + 1), true) else (lock, false)

/-- `pg_advisory_unlock`: a session that does not hold the lock changes nothing. -/
def unlock (lock : AdvisoryLock ι) (session : ι) : AdvisoryLock ι :=
  match lock with
  | none => none
  | some (holder, again) =>
    if holder = session then
      match again with
      | 0 => none
      | again + 1 => some (holder, again)
    else lock

/-- The session that holds the lock. -/
def holder (lock : AdvisoryLock ι) : Option ι := lock.map Prod.fst

end AdvisoryLock

/-! ## The code of a process -/

/-- How the body of a process ends. -/
inductive Ending where
  | returned | raised
  deriving DecidableEq, Repr

/-- Where a process is in `migration_lock`. -/
inductive Phase where
  /-- It has not called it. -/
  | outside
  /-- Before an attempt. -/
  | trying (deadline : ℚ)
  /-- After an attempt, before its commit. -/
  | tried (deadline : ℚ) (acquired : Bool)
  /-- After an attempt that failed, before the clock is read. -/
  | waiting (deadline : ℚ)
  /-- At the `yield`. -/
  | body
  /-- In the `finally` with the lock acquired, before the rollback. -/
  | leaving (ending : Ending)
  /-- Before the unlock. -/
  | releasing (ending : Ending)
  /-- After the unlock, before its commit. -/
  | released (ending : Ending)
  /-- Out of it, after the body. -/
  | ended (ending : Ending)
  /-- Out of it with a `TimeoutError`. -/
  | timedOut
  deriving DecidableEq, Repr

/-- What a process does next: it reads the clock or executes a statement, or its body goes on,
comes back or raises. -/
inductive Action where
  | call (now : ℚ)
  | tryLock
  | commit
  | readClock (now : ℚ)
  | work
  | finish
  | fail
  | rollback
  | unlock
  deriving DecidableEq, Repr

section Code

variable {ι : Type*} [DecidableEq ι]

/-- `migration_lock`, one statement at a time, on the connection of process `i`. -/
def lockStep (timeout : ι → ℚ) (i : ι) (action : Action) (lock : AdvisoryLock ι) (phase : Phase) :
    Option (AdvisoryLock ι × Phase) :=
  match phase, action with
  | .outside, .call now => some (lock, .trying (now + timeout i))
  | .trying deadline, .tryLock =>
    let (lock, acquired) := lock.tryLock i
    some (lock, .tried deadline acquired)
  | .tried deadline acquired, .commit =>
    some (lock, if acquired then .body else .waiting deadline)
  | .waiting deadline, .readClock now =>
    -- nothing was acquired, so the `finally` of a `TimeoutError` does nothing
    some (lock, if deadline ≤ now then .timedOut else .trying deadline)
  | .body, .work => some (lock, .body)
  | .body, .finish => some (lock, .leaving .returned)
  | .body, .fail => some (lock, .leaving .raised)
  | .leaving ending, .rollback => some (lock, .releasing ending)
  | .releasing ending, .unlock => some (lock.unlock i, .released ending)
  | .released ending, .commit => some (lock, .ended ending)
  | _, _ => none

/-- The steps of the code, one constructor for each statement and each of its outcomes. -/
inductive Statement (timeout : ι → ℚ) (i : ι) (lock : AdvisoryLock ι) :
    Action → Phase → AdvisoryLock ι → Phase → Prop where
  | call (now) : Statement timeout i lock (.call now) .outside lock (.trying (now + timeout i))
  | attempt (deadline) : Statement timeout i lock .tryLock (.trying deadline)
      (lock.tryLock i).1 (.tried deadline (lock.tryLock i).2)
  | enter (deadline) : Statement timeout i lock .commit (.tried deadline true) lock .body
  | miss (deadline) : Statement timeout i lock .commit (.tried deadline false) lock
      (.waiting deadline)
  | giveUp {deadline now} (h : deadline ≤ now) :
      Statement timeout i lock (.readClock now) (.waiting deadline) lock .timedOut
  | sleep {deadline now} (h : now < deadline) :
      Statement timeout i lock (.readClock now) (.waiting deadline) lock (.trying deadline)
  | work : Statement timeout i lock .work .body lock .body
  | finish : Statement timeout i lock .finish .body lock (.leaving .returned)
  | fail : Statement timeout i lock .fail .body lock (.leaving .raised)
  | rollback (ending) : Statement timeout i lock .rollback (.leaving ending) lock
      (.releasing ending)
  | unlock (ending) : Statement timeout i lock .unlock (.releasing ending) (lock.unlock i)
      (.released ending)
  | leave (ending) : Statement timeout i lock .commit (.released ending) lock (.ended ending)

/-- **What a step of a process is.** -/
theorem statement_of_lockStep {timeout : ι → ℚ} {i : ι} {action : Action}
    {lock lock' : AdvisoryLock ι} {phase phase' : Phase}
    (h : lockStep timeout i action lock phase = some (lock', phase')) :
    Statement timeout i lock action phase lock' phase' := by
  cases phase <;> cases action <;>
    simp only [lockStep, Option.some.injEq, Prod.mk.injEq, reduceCtorEq] at h
  case outside.call now =>
    obtain ⟨rfl, rfl⟩ := h
    exact .call now
  case trying.tryLock deadline =>
    obtain ⟨rfl, rfl⟩ := h
    exact .attempt deadline
  case tried.commit deadline acquired =>
    obtain ⟨rfl, rfl⟩ := h
    cases acquired
    · exact .miss deadline
    · exact .enter deadline
  case waiting.readClock deadline now =>
    obtain ⟨rfl, rfl⟩ := h
    split_ifs with hlate
    · exact .giveUp hlate
    · exact .sleep (not_le.mp hlate)
  case body.work =>
    obtain ⟨rfl, rfl⟩ := h
    exact .work
  case body.finish =>
    obtain ⟨rfl, rfl⟩ := h
    exact .finish
  case body.fail =>
    obtain ⟨rfl, rfl⟩ := h
    exact .fail
  case leaving.rollback ending =>
    obtain ⟨rfl, rfl⟩ := h
    exact .rollback ending
  case releasing.unlock ending =>
    obtain ⟨rfl, rfl⟩ := h
    exact .unlock ending
  case released.commit ending =>
    obtain ⟨rfl, rfl⟩ := h
    exact .leave ending

/-- Nobody has called `migration_lock`, and the lock is free. -/
def lockStart : Config ι (AdvisoryLock ι) Phase := ⟨none, fun _ => .outside⟩

/-- Between the attempt that acquires the lock and the unlock. -/
def Phase.holds : Phase → Prop
  | .tried _ true | .body | .leaving _ | .releasing _ => True
  | _ => False

/-- An attempt was made, and nothing else of consequence. -/
def OnlyTried (actions : List Action) : Prop :=
  .tryLock ∈ actions ∧ .work ∉ actions ∧ .finish ∉ actions ∧ .fail ∉ actions ∧ .unlock ∉ actions

/-- What a process has done at each place of the code. -/
def Phase.History (actions : List Action) : Phase → Prop
  | .outside => actions = []
  | .trying _ => (∃ now, actions = [.call now]) ∨ OnlyTried actions
  | .tried _ _ | .waiting _ | .timedOut => OnlyTried actions
  | .body => .tryLock ∈ actions ∧ .unlock ∉ actions
  | .leaving _ | .releasing _ => .tryLock ∈ actions ∧ .unlock ∉ actions
  | .released _ | .ended _ => .tryLock ∈ actions

theorem OnlyTried.concat {actions : List Action} (h : OnlyTried actions) {action : Action}
    (ha : action = .commit ∨ action = .tryLock ∨ ∃ now, action = .readClock now) :
    OnlyTried (actions ++ [action]) := by
  obtain ⟨htry, hwork, hfinish, hfail, hunlock⟩ := h
  rcases ha with rfl | rfl | ⟨now, rfl⟩ <;> simp [OnlyTried, *]

variable {timeout : ι → ℚ} {c : Config ι (AdvisoryLock ι) Phase} {events : List (ι × Action)}

/-- **What a process has done** by the time it is at a place of the code. -/
theorem history_of_exec (h : exec (lockStep timeout) lockStart events = some c) (i : ι) :
    (c.locals i).History (own i events) := by
  refine locals_invariant (L := fun actions phase => phase.History actions) rfl ?_ h
  intro actions action lock phase lock' phase' hhistory hnext
  cases statement_of_lockStep hnext with
  | call now =>
    rw [Phase.History] at hhistory
    exact Or.inl ⟨now, by rw [hhistory, List.nil_append]⟩
  | attempt deadline =>
    rcases hhistory with ⟨now, rfl⟩ | honly
    · simp [Phase.History, OnlyTried]
    · exact honly.concat (Or.inr (Or.inl rfl))
  | enter deadline =>
    exact ⟨List.mem_append_left _ hhistory.1, by simp [hhistory.2.2.2.2]⟩
  | miss deadline => exact OnlyTried.concat hhistory (Or.inl rfl)
  | giveUp hlate => exact OnlyTried.concat hhistory (Or.inr (Or.inr ⟨_, rfl⟩))
  | sleep hearly => exact Or.inr (OnlyTried.concat hhistory (Or.inr (Or.inr ⟨_, rfl⟩)))
  | work => exact ⟨List.mem_append_left _ hhistory.1, by simp [hhistory.2]⟩
  | finish => exact ⟨List.mem_append_left _ hhistory.1, by simp [hhistory.2]⟩
  | fail => exact ⟨List.mem_append_left _ hhistory.1, by simp [hhistory.2]⟩
  | rollback ending => exact ⟨List.mem_append_left _ hhistory.1, by simp [hhistory.2]⟩
  | unlock ending => exact List.mem_append_left _ hhistory.1
  | leave ending => exact List.mem_append_left _ hhistory

/-! ## Whose lock it is -/

namespace AdvisoryLock

/-- Nobody has taken the lock more than once. -/
def TakenOnce (lock : AdvisoryLock ι) : Prop := ∀ i again, lock = some (i, again) → again = 0

/-- An attempt of a session that does not hold the lock. -/
theorem tryLock_spec {lock : AdvisoryLock ι} {i : ι} (h : lock.holder ≠ some i) :
    (lock = none ∧ lock.tryLock i = (some (i, 0), true)) ∨
      (lock ≠ none ∧ lock.tryLock i = (lock, false)) := by
  cases lock with
  | none => exact Or.inl ⟨rfl, rfl⟩
  | some held =>
    have hne : held.1 ≠ i := fun heq => h (by rw [holder, Option.map_some, heq])
    exact Or.inr ⟨by simp, by rw [tryLock, if_neg hne]⟩

/-- The unlock of the session that has taken the lock once. -/
theorem unlock_of_holder {lock : AdvisoryLock ι} {i : ι} (h : lock.holder = some i)
    (honce : lock.TakenOnce) : lock.unlock i = none := by
  obtain ⟨⟨j, again⟩, rfl, rfl⟩ := Option.map_eq_some_iff.mp h
  rw [honce j again rfl, unlock, if_pos rfl]

end AdvisoryLock

/-- **Whose lock it is.**  In every interleaving the lock belongs to the process between its
successful attempt and its unlock, which has taken it once. -/
theorem owned_of_exec (h : exec (lockStep timeout) lockStart events = some c) :
    c.shared.TakenOnce ∧ Owned Phase.holds AdvisoryLock.holder c := by
  refine Owned.exec (c := lockStart) ?_ ?_ ?_ ?_ h
  · intro i
    simp [lockStart, Phase.holds, AdvisoryLock.holder]
  · intro i again heq
    cases heq
  · intro i action lock phase lock' phase' hnext honce hholds
    cases statement_of_lockStep hnext with
    | attempt deadline =>
      have hfree : lock.holder ≠ some i := fun heq => hholds.mpr heq
      rcases AdvisoryLock.tryLock_spec hfree with ⟨-, htry⟩ | ⟨-, htry⟩
      · rw [htry]
        refine ⟨fun _ _ heq => ?_, iff_of_true trivial rfl⟩
        cases heq
        rfl
      · rw [htry]
        exact ⟨honce, iff_of_false id hfree⟩
    | unlock ending =>
      rw [AdvisoryLock.unlock_of_holder (hholds.mp trivial) honce]
      refine ⟨fun _ _ heq => absurd heq (by simp), iff_of_false id ?_⟩
      simp [AdvisoryLock.holder]
    | _ => exact ⟨honce, hholds⟩
  · intro i action lock phase lock' phase' j hnext honce hholds hj
    cases statement_of_lockStep hnext with
    | attempt deadline =>
      rcases AdvisoryLock.tryLock_spec fun heq => hholds.mpr heq with ⟨hnone, htry⟩ | ⟨-, htry⟩
      · rw [htry, hnone]
        simp [AdvisoryLock.holder, hj.symm]
      · rw [htry]
    | unlock ending =>
      have hholder := hholds.mp trivial
      rw [AdvisoryLock.unlock_of_holder hholder honce, hholder]
      simp [AdvisoryLock.holder, hj.symm]
    | _ => exact Iff.rfl

/-! ## What the lock guarantees -/

/-- The guarantees, after an interleaving that has led to a configuration. -/
structure Exclusive (timeout : ι → ℚ) (events : List (ι × Action))
    (c : Config ι (AdvisoryLock ι) Phase) : Prop where
  /-- At most one process is inside its body. -/
  alone : ∀ i j, c.locals i = .body → c.locals j = .body → i = j
  /-- A process that gave up has not run its body and has not unlocked anything. -/
  gaveUp : ∀ i, c.locals i = .timedOut →
    .work ∉ own i events ∧ .finish ∉ own i events ∧ .fail ∉ own i events ∧
      .unlock ∉ own i events
  /-- Only the holder unlocks, and then the lock is free. -/
  releases : ∀ i d, stepBy (lockStep timeout) c (i, .unlock) = some d →
    c.shared.holder = some i ∧ d.shared = none
  /-- A process that has done more than to compute its deadline has made an attempt. -/
  attempts : ∀ i, own i events = [] ∨ (∃ now, own i events = [.call now]) ∨
    .tryLock ∈ own i events
  /-- Before its attempt, a process can make it. -/
  tries : ∀ i deadline, c.locals i = .trying deadline →
    (stepBy (lockStep timeout) c (i, .tryLock)).isSome
  /-- After its body, a process goes on to the unlock. -/
  leaves : ∀ i ending, c.locals i = .leaving ending →
    ∃ d, stepBy (lockStep timeout) c (i, .rollback) = some d ∧ d.locals i = .releasing ending
  /-- The unlock frees the lock, and the next attempt acquires it. -/
  frees : ∀ i ending, c.locals i = .releasing ending →
    ∃ d, stepBy (lockStep timeout) c (i, .unlock) = some d ∧ d.shared = none ∧
      d.locals i = .released ending ∧
      ∀ j deadline, d.locals j = .trying deadline →
        ∃ e, stepBy (lockStep timeout) d (j, .tryLock) = some e ∧
          e.locals j = .tried deadline true
  /-- A process that has unlocked, or has given up, does not hold the lock. -/
  gone : ∀ i, ((∃ ending, c.locals i = .released ending ∨ c.locals i = .ended ending) ∨
    c.locals i = .timedOut) → c.shared.holder ≠ some i

/-- Only a process that is about to unlock does. -/
theorem releasing_of_unlock {i : ι} {lock lock' : AdvisoryLock ι} {phase phase' : Phase}
    (h : lockStep timeout i .unlock lock phase = some (lock', phase')) :
    (∃ ending, phase = .releasing ending) ∧ lock' = lock.unlock i := by
  cases statement_of_lockStep h with
  | unlock ending => exact ⟨⟨ending, rfl⟩, rfl⟩

/-- A process makes an attempt as soon as it has computed its deadline. -/
theorem Phase.History.attempted {actions : List Action} {phase : Phase}
    (h : phase.History actions) :
    actions = [] ∨ (∃ now, actions = [.call now]) ∨ .tryLock ∈ actions := by
  cases phase with
  | outside => exact Or.inl h
  | trying deadline => exact Or.inr (h.imp_right And.left)
  | released ending => exact Or.inr (Or.inr h)
  | ended ending => exact Or.inr (Or.inr h)
  | _ => exact Or.inr (Or.inr h.1)

/-- On a free lock an attempt succeeds. -/
theorem stepBy_tryLock_of_free (hfree : c.shared = none) {j : ι} {deadline : ℚ}
    (hj : c.locals j = .trying deadline) :
    ∃ e, stepBy (lockStep timeout) c (j, .tryLock) = some e ∧
      e.locals j = .tried deadline true := by
  refine ⟨_, stepBy_of_next (by rw [hj, hfree]; rfl), ?_⟩
  exact Function.update_self _ _ _

/-- **Migrations are mutually exclusive and the lock is always given back.**  This holds for any
number of processes on PostgreSQL connections of their own, for every timeout, and after every
interleaving of what they do: readings of the clock, attempts, commits, bodies that go on, come
back or raise, and the statements of the release. -/
theorem migrations_are_exclusive (timeout : ι → ℚ) (events : List (ι × Action))
    (c : Config ι (AdvisoryLock ι) Phase)
    (h : exec (lockStep timeout) lockStart events = some c) : Exclusive timeout events c := by
  obtain ⟨honce, howned⟩ := owned_of_exec h
  have hhistory := history_of_exec h
  have hunlock : ∀ i, Phase.holds (c.locals i) → c.shared.unlock i = none := fun i hi =>
    AdvisoryLock.unlock_of_holder ((howned i).mp hi) honce
  refine ⟨fun i j hi hj => ?_, fun i hi => ?_, fun i d hd => ?_, fun i => ?_,
    fun i deadline hi => ?_, fun i ending hi => ?_, fun i ending hi => ?_, fun i hi => ?_⟩
  · exact howned.unique (by rw [hi]; trivial) (by rw [hj]; trivial)
  · have hi' := hhistory i
    rw [hi] at hi'
    exact hi'.2
  · obtain ⟨⟨ending, hi⟩, hd'⟩ := releasing_of_unlock (stepBy_spec hd).1
    have hholds : Phase.holds (c.locals i) := by rw [hi]; trivial
    exact ⟨(howned i).mp hholds, hd'.trans (hunlock i hholds)⟩
  · exact (hhistory i).attempted
  · rw [stepBy_of_next (by rw [hi, lockStep])]
    rfl
  · refine ⟨_, stepBy_of_next (by rw [hi, lockStep]), ?_⟩
    exact Function.update_self _ _ _
  · have hfree : c.shared.unlock i = none := hunlock i (by rw [hi]; trivial)
    refine ⟨_, stepBy_of_next (by rw [hi]; rfl), hfree, Function.update_self _ _ _, ?_⟩
    exact fun j deadline hj => stepBy_tryLock_of_free hfree hj
  · intro hholder
    have hholds : Phase.holds (c.locals i) := (howned i).mpr hholder
    rcases hi with ⟨ending, hi | hi⟩ | hi
    all_goals
      rw [hi] at hholds
      exact hholds

end Code

/-- Two processes: the second one gives up while the first one's body runs, and that body raises. -/
def contention : List (ℕ × Action) :=
  [(0, .call 0), (1, .call 0), (0, .tryLock), (1, .tryLock), (0, .commit), (1, .commit),
    (0, .work), (1, .readClock 0), (0, .fail), (0, .rollback), (0, .unlock), (0, .commit)]

theorem migrations_are_exclusive_contention :
    ∃ c, exec (lockStep fun i => if i = 1 then 0 else 120) lockStart contention = some c ∧
      Exclusive (fun i => if i = 1 then 0 else 120) contention c :=
  have h : (exec (lockStep fun i => if i = 1 then 0 else 120) lockStart contention).isSome := by
    decide
  ⟨_, (Option.some_get h).symm, migrations_are_exclusive _ _ _ (Option.some_get h).symm⟩

end EpsCloud
