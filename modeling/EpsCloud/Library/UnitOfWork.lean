import Mathlib

/-!
# A unit of work behind a registry

A handler works on a database through sessions.  A session keeps what is added to
it, sends it to its open transaction on a flush, and has it committed on a commit.
A registry knows one session at a time and makes a new one when it is asked and
knows none.  A handler may keep a session object, which stays the same when the
registry forgets it.

At most one read of a request fails.  A failed read raises, except for a guarded
one: that one catches the error, has the registry roll its session back and forget
it, and lets the handler go on.

* `exec`: the run of a handler in which one given read fails.
* `exec_eq_of_none`: a run that makes too few reads is the run without a failure.
* `exec_struck`: what a failed read leaves, by the kind of the read.
* `honest_iff`: for which failed reads the answer tells whether the due writes are
  committed.
-/

namespace UnitOfWork

variable {σ ω φ : Type}

/-- A session object: what it holds, what it has sent to its transaction, and whether a commit
has expired its objects. -/
structure Session (ω : Type) where
  pending : List ω := []
  sent : List ω := []
  expired : Bool := false

/-- A rolled back session holds nothing. -/
def Session.rollback (s : Session ω) : Session ω := { s with pending := [], sent := [] }

/-- The committed writes, the session objects in the order they were made, and the one that the
registry knows. -/
structure World (ω : Type) where
  committed : List ω := []
  sessions : List (Session ω) := []
  registered : Option ℕ := none

/-- The session that a statement goes to: the registry's, or a given object. -/
inductive Handle where
  | registry
  | object (id : ℕ)

/-- A handler, up to its answer. -/
inductive Handler (σ ω φ : Type) where
  | read (on : Handle) (next : σ → Handler σ ω φ)
  /-- A read that is caught: `none` is what it gives when it fails. -/
  | guarded (next : Option σ → Handler σ ω φ)
  /-- Ask the registry for its session object. -/
  | session (next : ℕ → Handler σ ω φ)
  | add (on : Handle) (w : ω) (next : Handler σ ω φ)
  | flush (on : Handle) (next : Handler σ ω φ)
  | commit (next : Handler σ ω φ)
  /-- Look at an object of a session, which is read again if it has expired. -/
  | touch (id : ℕ) (next : Option σ → Handler σ ω φ)
  | done
  | raise (e : φ)

/-- How a run ends. -/
structure Result (ω φ : Type) where
  answer : Except φ Unit
  committed : List ω

namespace World

variable (w : World ω)

/-- A session object. -/
def get (id : ℕ) : Session ω := w.sessions.getD id {}

/-- The session object of a handle, which the registry makes if it knows none. -/
def resolve : Handle → ℕ × World ω
  | .object id => (id, w)
  | .registry =>
    match w.registered with
    | some id => (id, w)
    | none =>
      (w.sessions.length,
        { w with sessions := w.sessions ++ [{}], registered := some w.sessions.length })

/-- A session object changes. -/
def modify (id : ℕ) (f : Session ω → Session ω) : World ω :=
  { w with sessions := w.sessions.modify id f }

/-- The registry rolls its session back and forgets it. -/
def remove : World ω :=
  match w.registered with
  | none => w
  | some id => { w.modify id Session.rollback with registered := none }

/-- Add to a session. -/
def add (on : Handle) (x : ω) : World ω :=
  (w.resolve on).2.modify (w.resolve on).1 fun s => { s with pending := s.pending ++ [x] }

/-- Send what a session holds to its transaction. -/
def flush (on : Handle) : World ω :=
  (w.resolve on).2.modify (w.resolve on).1 fun s =>
    { s with pending := [], sent := s.sent ++ s.pending }

/-- Flush the registry's session and commit its transaction. -/
def commit : World ω :=
  let here := w.resolve .registry
  { here.2.modify here.1 fun _ => ⟨[], [], true⟩ with
    committed := here.2.committed ++ (here.2.get here.1).sent ++ (here.2.get here.1).pending }

end World

section Runs

variable (start : σ) (apply : σ → ω → σ) (failed : φ)

/-- What a session sees: what is committed, and what it has sent. -/
def view (w : World ω) (id : ℕ) : σ := (w.committed ++ (w.get id).sent).foldl apply start

/-- The run of a handler, in which the read with this number, if there is one, fails. -/
def exec : Handler σ ω φ → Option ℕ → World ω → Result ω φ
  | .read on next, fault, w =>
    let here := w.resolve on
    if fault = some 0 then ⟨.error failed, here.2.committed⟩
    else exec (next (view start apply here.2 here.1)) (fault.map Nat.pred) here.2
  | .guarded next, fault, w =>
    let here := w.resolve .registry
    if fault = some 0 then exec (next none) none here.2.remove
    else exec (next (some (view start apply here.2 here.1))) (fault.map Nat.pred) here.2
  | .session next, fault, w => exec (next (w.resolve .registry).1) fault (w.resolve .registry).2
  | .add on x next, fault, w => exec next fault (w.add on x)
  | .flush on next, fault, w => exec next fault (w.flush on)
  | .commit next, fault, w => exec next fault w.commit
  | .touch id next, fault, w =>
    if (w.get id).expired then
      if fault = some 0 then ⟨.error failed, w.committed⟩
      else exec (next (some (view start apply w id))) (fault.map Nat.pred) w
    else exec (next none) fault w
  | .done, _, w => ⟨.ok (), w.committed⟩
  | .raise e, _, w => ⟨.error e, w.committed⟩

/-- The kinds of reads: a query of the handler, a guarded one, and a repeated one of an expired
object. -/
inductive ReadKind where
  | query | guarded | refresh
  deriving DecidableEq

/-- The reads of a run in which none fails. -/
def reads : Handler σ ω φ → World ω → List ReadKind
  | .read on next, w =>
    let here := w.resolve on
    .query :: reads (next (view start apply here.2 here.1)) here.2
  | .guarded next, w =>
    let here := w.resolve .registry
    .guarded :: reads (next (some (view start apply here.2 here.1))) here.2
  | .session next, w => reads (next (w.resolve .registry).1) (w.resolve .registry).2
  | .add on x next, w => reads next (w.add on x)
  | .flush on next, w => reads next (w.flush on)
  | .commit next, w => reads next w.commit
  | .touch id next, w =>
    if (w.get id).expired then .refresh :: reads (next (some (view start apply w id))) w
    else reads (next none) w
  | .done, _ => []
  | .raise _, _ => []

variable {start apply failed}

/-- **Without the failing read.** -/
theorem exec_eq_of_none (p : Handler σ ω φ) {k : ℕ} {w : World ω}
    (hk : (reads start apply p w)[k]? = none) :
    exec start apply failed p (some k) w = exec start apply failed p none w := by
  induction p generalizing k w with
  | read on next ih =>
    rw [reads] at hk
    cases k with
    | zero => cases hk
    | succ k =>
      rw [List.getElem?_cons_succ] at hk
      exact ih _ hk
  | guarded next ih =>
    rw [reads] at hk
    cases k with
    | zero => cases hk
    | succ k =>
      rw [List.getElem?_cons_succ] at hk
      exact ih _ hk
  | session next ih => exact ih _ hk
  | add on x next ih => exact ih hk
  | flush on next ih => exact ih hk
  | commit next ih => exact ih hk
  | touch id next ih =>
    rw [reads] at hk
    rw [exec, exec]
    by_cases hexp : (w.get id).expired = true
    · rw [if_pos hexp] at hk ⊢
      rw [if_pos hexp]
      cases k with
      | zero => cases hk
      | succ k =>
        rw [List.getElem?_cons_succ] at hk
        exact ih _ hk
    · rw [if_neg hexp] at hk ⊢
      rw [if_neg hexp]
      exact ih _ hk
  | done => rfl
  | raise e => rfl

end Runs

/-! ## The discipline of a handler -/

namespace Handler

/-- Go on with a result, or raise its error. -/
def check {α : Type} (x : Except φ α) (next : α → Handler σ ω φ) : Handler σ ω φ :=
  match x with
  | .ok a => next a
  | .error e => raise e

/-- Add several writes to a session. -/
def addAll (on : Handle) (ws : List ω) (next : Handler σ ω φ) : Handler σ ω φ :=
  ws.foldr (add on) next

/-- After the commit a handler only looks at the objects of session `s`. -/
def Renders (s : ℕ) : Handler σ ω φ → Prop
  | touch id next => id = s ∧ ∀ v, Renders s (next v)
  | done | raise _ => True
  | _ => False

/-- A handler that keeps session `s`, changes only that one, and commits once. -/
def Works (s : ℕ) : Handler σ ω φ → Prop
  | read _ next => ∀ v, Works s (next v)
  | guarded next => ∀ v, Works s (next v)
  | add on _ next => on = .object s ∧ Works s next
  | flush on next => on = .object s ∧ Works s next
  | commit next => Renders s next
  | raise _ => True
  | _ => False

/-- A handler before it has asked for the session: it queries and changes through the
registry. -/
def Prepares : Handler σ ω φ → Prop
  | read on next => on = .registry ∧ ∀ v, Prepares (next v)
  | add on _ next => on = .registry ∧ Prepares next
  | session next => ∀ s, Works s (next s)
  | raise _ => True
  | _ => False

/-- Every way through the handler on which no object has expired ends in an answer, or every
one in a failure. -/
def Ends (ok : Bool) : Handler σ ω φ → Prop
  | read _ next => ∀ v, Ends ok (next v)
  | guarded next => ∀ v, Ends ok (next v)
  | session next => ∀ s, Ends ok (next s)
  | add _ _ next => Ends ok next
  | flush _ next => Ends ok next
  | commit next => Ends ok next
  | touch _ next => Ends ok (next none)
  | done => ok = true
  | raise _ => ok = false

/-- From its first guarded read on the run of a handler ends in the same way, whatever it
reads. -/
def Settles (start : σ) (apply : σ → ω → σ) (ok : Bool) : Handler σ ω φ → World ω → Prop
  | read on next, w =>
    Settles start apply ok (next (view start apply (w.resolve on).2 (w.resolve on).1))
      (w.resolve on).2
  | guarded next, _ => ∀ v, Ends ok (next v)
  | session next, w =>
    Settles start apply ok (next (w.resolve .registry).1) (w.resolve .registry).2
  | add on x next, w => Settles start apply ok next (w.add on x)
  | flush on next, w => Settles start apply ok next (w.flush on)
  | _, _ => True

/-- Every way through the handler raises before it commits. -/
def Raises : Handler σ ω φ → Prop
  | read _ next => ∀ v, Raises (next v)
  | guarded next => ∀ v, Raises (next v)
  | session next => ∀ s, Raises (next s)
  | add _ _ next => Raises next
  | flush _ next => Raises next
  | raise _ => True
  | _ => False

theorem refresh_notMem_of_raises {start : σ} {apply : σ → ω → σ} {p : Handler σ ω φ}
    (h : p.Raises) (w : World ω) : ReadKind.refresh ∉ reads start apply p w := by
  induction p generalizing w with
  | read on next ih => simpa [reads] using ih _ (h _) _
  | guarded next ih => simpa [reads] using ih _ (h _) _
  | session next ih => exact ih _ (h _) _
  | add on x next ih => exact ih h _
  | flush on next ih => exact ih h _
  | raise e => exact List.not_mem_nil
  | _ => exact h.elim

theorem raises_addAll (on : Handle) (ws : List ω) {next : Handler σ ω φ} (h : next.Raises) :
    (addAll on ws next).Raises := by
  induction ws with
  | nil => exact h
  | cons w ws ih => exact ih

theorem settles_of_ends {start : σ} {apply : σ → ω → σ} {ok : Bool} {p : Handler σ ω φ}
    (h : p.Ends ok) (w : World ω) : p.Settles start apply ok w := by
  induction p generalizing w with
  | read on next ih => exact ih _ (h _) _
  | guarded next => exact h
  | session next ih => exact ih _ (h _) _
  | add on x next ih => exact ih h _
  | flush on next ih => exact ih h _
  | commit => exact trivial
  | touch => exact trivial
  | done => exact trivial
  | raise => exact trivial

theorem settles_read {start : σ} {apply : σ → ω → σ} {ok : Bool} {on : Handle}
    {next : σ → Handler σ ω φ} {w : World ω}
    (h : (next (view start apply (w.resolve on).2 (w.resolve on).1)).Settles start apply ok
      (w.resolve on).2) : (read on next).Settles start apply ok w := h

theorem settles_check {start : σ} {apply : σ → ω → σ} {ok : Bool} {α : Type} (x : Except φ α)
    {next : α → Handler σ ω φ} {w : World ω}
    (h : ∀ a, x = .ok a → (next a).Settles start apply ok w) :
    (check x next).Settles start apply ok w := by
  cases x with
  | ok a => exact h a rfl
  | error e => exact trivial

theorem prepares_check {α : Type} (x : Except φ α) {next : α → Handler σ ω φ}
    (h : ∀ a, (next a).Prepares) : (check x next).Prepares := by
  cases x with
  | ok a => exact h a
  | error e => exact trivial

theorem works_check {α : Type} {s : ℕ} (x : Except φ α) {next : α → Handler σ ω φ}
    (h : ∀ a, (next a).Works s) : (check x next).Works s := by
  cases x with
  | ok a => exact h a
  | error e => exact trivial

theorem prepares_addAll (ws : List ω) {next : Handler σ ω φ} (h : next.Prepares) :
    (addAll .registry ws next).Prepares := by
  induction ws with
  | nil => exact h
  | cons w ws ih => exact ⟨rfl, ih⟩

theorem works_addAll {s : ℕ} (ws : List ω) {next : Handler σ ω φ} (h : next.Works s) :
    (addAll (.object s) ws next).Works s := by
  induction ws with
  | nil => exact h
  | cons w ws ih => exact ⟨rfl, ih⟩

theorem ends_addAll {ok : Bool} (on : Handle) (ws : List ω) {next : Handler σ ω φ}
    (h : next.Ends ok) : (addAll on ws next).Ends ok := by
  induction ws with
  | nil => exact h
  | cons w ws ih => exact ih

end Handler

/-! ## Which session is which -/

namespace World

variable {w : World ω} {s id : ℕ}

theorem get_modify_self (h : id < w.sessions.length) (f : Session ω → Session ω) :
    (w.modify id f).get id = f (w.get id) := by
  rw [get, get, modify, List.getD_eq_getElem?_getD, List.getD_eq_getElem?_getD,
    List.getElem?_modify_eq, List.getElem?_eq_getElem h]
  rfl

theorem get_modify_of_ne (h : s ≠ id) (f : Session ω → Session ω) :
    (w.modify id f).get s = w.get s := by
  show (w.sessions.modify id f).getD s {} = w.sessions.getD s {}
  rw [List.getD_eq_getElem?_getD, List.getD_eq_getElem?_getD, List.getElem?_modify_ne f _ h.symm]

@[simp] theorem length_modify (f : Session ω → Session ω) :
    (w.modify id f).sessions.length = w.sessions.length := by
  rw [modify, List.length_modify]

/-- The registry knows session `s`, and nothing is committed. -/
structure Open (s : ℕ) (w : World ω) : Prop where
  committed : w.committed = []
  registered : w.registered = some s
  made : s < w.sessions.length
  unexpired : (w.get s).expired = false

/-- The registry has forgotten session `s`.  If it knows another one, that one is empty. -/
structure Lost (s : ℕ) (w : World ω) : Prop where
  committed : w.committed = []
  other : ∀ r ∈ w.registered, r ≠ s ∧ (w.get r).sent = [] ∧ (w.get r).pending = []
  made : s < w.sessions.length
  unexpired : (w.get s).expired = false

/-- The handler has not asked for the session yet. -/
structure Prior (w : World ω) : Prop where
  committed : w.committed = []
  made : ∀ r ∈ w.registered, r < w.sessions.length ∧ (w.get r).expired = false

theorem prior_start : Prior ({} : World ω) where
  committed := rfl
  made := fun _ h => absurd h (by simp)

/-- A world with a new session. -/
def fresh (w : World ω) : World ω :=
  { w with sessions := w.sessions ++ [{}], registered := some w.sessions.length }

theorem resolve_of_none (h : w.registered = none) :
    w.resolve .registry = (w.sessions.length, w.fresh) := by
  rw [resolve, h]
  rfl

theorem resolve_of_some (h : w.registered = some s) : w.resolve .registry = (s, w) := by
  rw [resolve, h]

theorem get_fresh_of_lt (h : s < w.sessions.length) : w.fresh.get s = w.get s := by
  rw [get, get, fresh, List.getD_eq_getElem?_getD, List.getD_eq_getElem?_getD,
    List.getElem?_append_left h]

theorem get_fresh_length : w.fresh.get w.sessions.length = {} := by
  rw [get, fresh, List.getD_eq_getElem?_getD, List.getElem?_append_right le_rfl, Nat.sub_self]
  rfl

theorem length_fresh : w.fresh.sessions.length = w.sessions.length + 1 := by
  rw [fresh, List.length_append, List.length_singleton]

/-- The registry's session, once the handler has asked for it. -/
theorem Prior.resolve (h : Prior w) : Open (w.resolve .registry).1 (w.resolve .registry).2 := by
  cases hr : w.registered with
  | none =>
    rw [resolve_of_none hr]
    exact ⟨h.committed, rfl, by rw [length_fresh]; exact Nat.lt_succ_self _,
      by rw [get_fresh_length]⟩
  | some r =>
    rw [resolve_of_some hr]
    exact ⟨h.committed, hr, (h.made r hr).1, (h.made r hr).2⟩

theorem Open.prior (h : Open s w) : Prior w where
  committed := h.committed
  made := by
    intro r hr
    rw [h.registered] at hr
    cases hr
    exact ⟨h.made, h.unexpired⟩

theorem Open.modify (h : Open s w) {f : Session ω → Session ω}
    (hf : ∀ x, (f x).expired = x.expired) : Open s (w.modify s f) where
  committed := h.committed
  registered := h.registered
  made := by rw [length_modify]; exact h.made
  unexpired := by rw [get_modify_self h.made, hf, h.unexpired]

theorem Open.resolve_eq (h : Open s w) (on : Handle) : (w.resolve on).2 = w := by
  cases on with
  | registry => rw [resolve_of_some h.registered]
  | object id => rfl

theorem Open.add (h : Open s w) (x : ω) : Open s (w.add (.object s) x) := h.modify fun _ => rfl

theorem Open.flush (h : Open s w) : Open s (w.flush (.object s)) := h.modify fun _ => rfl

theorem Prior.add (h : Prior w) (x : ω) : Prior (w.add .registry x) :=
  (h.resolve.modify (f := fun s => { s with pending := s.pending ++ [x] }) fun _ => rfl).prior

/-- A failed guarded read leaves the handler with a session that the registry does not know. -/
theorem Open.remove (h : Open s w) : Lost s w.remove := by
  have hrem : w.remove = { w.modify s Session.rollback with registered := none } := by
    rw [World.remove, h.registered]
  have hopen : Open s (w.modify s Session.rollback) := h.modify fun _ => rfl
  rw [hrem]
  exact ⟨hopen.committed, fun r hr => absurd hr (by simp), hopen.made, hopen.unexpired⟩

theorem Lost.resolve (h : Lost s w) (on : Handle) : Lost s (w.resolve on).2 := by
  cases on with
  | object id => exact h
  | registry =>
    cases hr : w.registered with
    | some r =>
      rw [resolve_of_some hr]
      exact h
    | none =>
      rw [resolve_of_none hr]
      refine ⟨h.committed, ?_, ?_, ?_⟩
      · rintro r hr'
        cases hr'
        rw [get_fresh_length]
        exact ⟨h.made.ne', rfl, rfl⟩
      · rw [length_fresh]
        exact Nat.lt_succ_of_lt h.made
      · rw [get_fresh_of_lt h.made, h.unexpired]

theorem Lost.modify (h : Lost s w) {f : Session ω → Session ω}
    (hf : ∀ x, (f x).expired = x.expired) : Lost s (w.modify s f) where
  committed := h.committed
  other := by
    intro r hr
    obtain ⟨hne, hempty⟩ := h.other r hr
    rw [get_modify_of_ne hne]
    exact ⟨hne, hempty⟩
  made := by rw [length_modify]; exact h.made
  unexpired := by rw [get_modify_self h.made, hf, h.unexpired]

theorem Lost.add (h : Lost s w) (x : ω) : Lost s (w.add (.object s) x) := h.modify fun _ => rfl

theorem Lost.flush (h : Lost s w) : Lost s (w.flush (.object s)) := h.modify fun _ => rfl

/-- The commit of a handler whose session is lost commits nothing. -/
theorem Lost.commit (h : Lost s w) :
    w.commit.committed = [] ∧ (w.commit.get s).expired = false := by
  have hlost := h.resolve .registry
  have hreg : ∃ r, (w.resolve .registry).2.registered = some r ∧ (w.resolve .registry).1 = r := by
    cases hr : w.registered with
    | none =>
      rw [resolve_of_none hr]
      exact ⟨_, rfl, rfl⟩
    | some r =>
      rw [resolve_of_some hr]
      exact ⟨r, hr, rfl⟩
  obtain ⟨r, hr, hid⟩ := hreg
  obtain ⟨hne, hsent, hpending⟩ := hlost.other r hr
  constructor
  · show (w.resolve .registry).2.committed ++
      ((w.resolve .registry).2.get (w.resolve .registry).1).sent ++
        ((w.resolve .registry).2.get (w.resolve .registry).1).pending = []
    rw [hid, hlost.committed, hsent, hpending]
    rfl
  · show (((w.resolve .registry).2.modify (w.resolve .registry).1 _).get s).expired = false
    rw [hid, get_modify_of_ne hne.symm, hlost.unexpired]

end World

/-! ## The failing read -/

section Failing

variable {start : σ} {apply : σ → ω → σ} {failed : φ} {s : ℕ} {ok : Bool} {w : World ω}
  {p : Handler σ ω φ}

theorem exec_unexpired (hp : p.Renders s) (hend : p.Ends ok) (hcommitted : w.committed = [])
    (hexp : (w.get s).expired = false) :
    (exec start apply failed p none w).committed = [] ∧
      ((exec start apply failed p none w).answer = .ok () ↔ ok = true) := by
  induction p with
  | touch id next ih =>
    obtain ⟨rfl, hnext⟩ := hp
    rw [exec, if_neg (by rw [hexp]; exact Bool.false_ne_true)]
    exact ih none (hnext none) hend
  | done => exact ⟨hcommitted, ⟨fun _ => hend, fun _ => rfl⟩⟩
  | raise e =>
    refine ⟨hcommitted, ⟨fun h => ?_, fun h => ?_⟩⟩
    · cases h
    · rw [show ok = false from hend] at h
      cases h
  | _ => exact hp.elim

/-- **A handler whose session is lost commits nothing.** -/
theorem exec_lost (hp : p.Works s) (hend : p.Ends ok) (hw : World.Lost s w) :
    (exec start apply failed p none w).committed = [] ∧
      ((exec start apply failed p none w).answer = .ok () ↔ ok = true) := by
  induction p generalizing w with
  | read on next ih =>
    rw [exec, if_neg (by simp)]
    exact ih _ (hp _) (hend _) (hw.resolve on)
  | guarded next ih =>
    rw [exec, if_neg (by simp)]
    exact ih _ (hp _) (hend _) (hw.resolve .registry)
  | add on x next ih =>
    obtain ⟨rfl, hnext⟩ := hp
    exact ih hnext hend (hw.add x)
  | flush on next ih =>
    obtain ⟨rfl, hnext⟩ := hp
    exact ih hnext hend hw.flush
  | commit next => exact exec_unexpired (p := next) hp hend hw.commit.1 hw.commit.2
  | raise e =>
    refine ⟨hw.committed, ⟨fun h => ?_, fun h => ?_⟩⟩
    · cases h
    · rw [show ok = false from hend] at h
      cases h
  | _ => exact hp.elim

/-- What a failed read leaves of a run. -/
def Struck (failed : φ) (ok : Bool) (full : Result ω φ) (run : Result ω φ) : ReadKind → Prop
  | .query => run = ⟨.error failed, []⟩
  | .guarded => run.committed = [] ∧ (run.answer = .ok () ↔ ok = true)
  | .refresh => run = ⟨.error failed, full.committed⟩

theorem exec_committed_of_renders (hp : p.Renders s) (fault : Option ℕ) :
    (exec start apply failed p fault w).committed = w.committed := by
  induction p generalizing fault with
  | touch id next ih =>
    rw [exec]
    split_ifs
    · rfl
    · exact ih _ (hp.2 _) _
    · exact ih _ (hp.2 _) _
  | done => rfl
  | raise e => rfl
  | _ => exact hp.elim

theorem exec_struck_of_renders (hp : p.Renders s) {k : ℕ} {kind : ReadKind}
    (hk : (reads start apply p w)[k]? = some kind) :
    Struck failed ok (exec start apply failed p none w) (exec start apply failed p (some k) w)
      kind := by
  induction p generalizing k with
  | touch id next ih =>
    rw [reads] at hk
    rw [exec, exec]
    by_cases hexp : (w.get id).expired = true
    · rw [if_pos hexp] at hk
      rw [if_pos hexp, if_pos hexp, if_neg (by simp : ¬ (none : Option ℕ) = some 0)]
      cases k with
      | zero =>
        cases hk
        rw [if_pos rfl]
        show (_ : Result ω φ) = ⟨_, _⟩
        rw [Option.map_none, exec_committed_of_renders (hp.2 _)]
      | succ k =>
        rw [List.getElem?_cons_succ] at hk
        exact ih _ (hp.2 _) hk
    · rw [if_neg hexp] at hk
      rw [if_neg hexp, if_neg hexp]
      exact ih none (hp.2 none) hk
  | done => cases hk
  | raise e => cases hk
  | _ => exact hp.elim

/-- **What a failed read leaves.** -/
theorem exec_struck_of_works (hp : p.Works s) (hset : p.Settles start apply ok w)
    (hw : World.Open s w) {k : ℕ} {kind : ReadKind}
    (hk : (reads start apply p w)[k]? = some kind) :
    Struck failed ok (exec start apply failed p none w) (exec start apply failed p (some k) w)
      kind := by
  induction p generalizing w k with
  | read on next ih =>
    rw [reads] at hk
    rw [Handler.Settles] at hset
    rw [exec, exec]
    rw [hw.resolve_eq on] at hk hset ⊢
    cases k with
    | zero =>
      cases hk
      show (_ : Result ω φ) = ⟨_, _⟩
      rw [if_pos rfl, hw.committed]
    | succ k =>
      rw [List.getElem?_cons_succ] at hk
      exact ih _ (hp _) hset hw hk
  | guarded next ih =>
    rw [reads] at hk
    rw [exec, exec]
    rw [hw.resolve_eq .registry] at hk ⊢
    cases k with
    | zero =>
      cases hk
      rw [if_pos rfl]
      exact exec_lost (hp _) (hset _) hw.remove
    | succ k =>
      rw [List.getElem?_cons_succ] at hk
      exact ih _ (hp _) (Handler.settles_of_ends (hset _) w) hw hk
  | add on x next ih =>
    obtain ⟨rfl, hnext⟩ := hp
    exact ih hnext hset (hw.add x) hk
  | flush on next ih =>
    obtain ⟨rfl, hnext⟩ := hp
    exact ih hnext hset hw.flush hk
  | commit next => exact exec_struck_of_renders hp hk
  | raise e => cases hk
  | _ => exact hp.elim

theorem exec_struck (failed : φ) (hp : p.Prepares) (hset : p.Settles start apply ok w)
    (hw : World.Prior w) {k : ℕ} {kind : ReadKind}
    (hk : (reads start apply p w)[k]? = some kind) :
    Struck failed ok (exec start apply failed p none w) (exec start apply failed p (some k) w)
      kind := by
  induction p generalizing w k with
  | read on next ih =>
    obtain ⟨rfl, hnext⟩ := hp
    rw [reads] at hk
    rw [exec, exec]
    cases k with
    | zero =>
      cases hk
      show (_ : Result ω φ) = ⟨_, _⟩
      rw [if_pos rfl, hw.resolve.committed]
    | succ k =>
      rw [List.getElem?_cons_succ] at hk
      exact ih _ (hnext _) hset hw.resolve.prior hk
  | add on x next ih =>
    obtain ⟨rfl, hnext⟩ := hp
    exact ih hnext hset (hw.add x) hk
  | session next ih => exact exec_struck_of_works (hp _) hset hw.resolve hk
  | raise e => cases hk
  | _ => exact hp.elim

/-- A successful answer means that exactly the due writes are committed, and any other that
nothing is. -/
def Honest (due : Except φ (List ω)) (run : Result ω φ) : Prop :=
  (run.answer = .ok () → due = .ok run.committed) ∧ (run.answer ≠ .ok () → run.committed = [])

/-- How a run ends that does what is due. -/
def dueResult : Except φ (List ω) → Result ω φ
  | .ok due => ⟨.ok (), due⟩
  | .error e => ⟨.error e, []⟩

theorem honest_dueResult (due : Except φ (List ω)) : Honest due (dueResult due) := by
  cases due with
  | ok due => exact ⟨fun _ => rfl, fun h => absurd rfl h⟩
  | error e =>
    constructor
    · intro h
      cases h
    · intro _
      rfl

/-- The failure of a read leaves the answer honest: it does not happen, or it is that of a query,
or no write is due, or it is caught and the handler fails nevertheless. -/
def Harmless (nothing fails : Prop) : Option ReadKind → Prop
  | none | some .query => True
  | some .guarded => nothing ∨ fails
  | some .refresh => nothing

/-- **Which failed reads leave the answer honest.** -/
theorem honest_iff {due : Except φ (List ω)} (hp : p.Prepares)
    (hset : p.Settles start apply ok {})
    (hfull : exec start apply failed p none {} = dueResult due)
    (herr : ∀ e, due = .error e → ReadKind.refresh ∉ reads start apply p {}) (k : ℕ) :
    Honest due (exec start apply failed p (some k) {}) ↔
      Harmless (due = .ok []) (ok = false) ((reads start apply p {})[k]?) := by
  cases hk : (reads start apply p {})[k]? with
  | none =>
    rw [exec_eq_of_none p hk, hfull]
    exact ⟨fun _ => trivial, fun _ => honest_dueResult due⟩
  | some kind =>
    have hstruck := exec_struck failed hp hset World.prior_start hk
    cases kind with
    | query =>
      rw [show exec start apply failed p (some k) {} = ⟨.error failed, []⟩ from hstruck]
      exact ⟨fun _ => trivial, fun _ => ⟨fun h => absurd h (by simp), fun _ => rfl⟩⟩
    | guarded =>
      obtain ⟨hcommitted, hanswer⟩ := hstruck
      rw [Honest, hanswer, hcommitted, Harmless]
      cases ok <;> simp
    | refresh =>
      rw [show exec start apply failed p (some k) {} = ⟨.error failed, _⟩ from hstruck, hfull]
      rw [Harmless]
      cases due with
      | error e => exact absurd (List.mem_of_getElem? hk) (herr e rfl)
      | ok due =>
        constructor
        · intro h
          exact congrArg Except.ok (h.2 (by simp))
        · intro h
          exact ⟨fun h' => absurd h' (by simp), fun _ => Except.ok.inj h⟩

end Failing

/-! ## A run in one session -/

section OneSession

variable {start : σ} {apply : σ → ω → σ} {failed : φ}

/-- The registry knows the only session, which holds and has sent these writes. -/
def working (pending sent : List ω) : World ω :=
  { sessions := [⟨pending, sent, false⟩], registered := some 0 }

/-- The only session has committed these writes. -/
def rendering (committed : List ω) : World ω :=
  { committed := committed, sessions := [⟨[], [], true⟩], registered := some 0 }

@[simp] theorem exec_read_start (next : σ → Handler σ ω φ) :
    exec start apply failed (.read .registry next) none {} =
      exec start apply failed (next start) none (working [] []) := rfl

@[simp] theorem exec_read_registry (next : σ → Handler σ ω φ) (pending sent : List ω) :
    exec start apply failed (.read .registry next) none (working pending sent) =
      exec start apply failed (next (sent.foldl apply start)) none (working pending sent) := rfl

@[simp] theorem exec_read_object (next : σ → Handler σ ω φ) (pending sent : List ω) :
    exec start apply failed (.read (.object 0) next) none (working pending sent) =
      exec start apply failed (next (sent.foldl apply start)) none (working pending sent) := rfl

@[simp] theorem reads_read_start (next : σ → Handler σ ω φ) :
    reads start apply (.read .registry next) {} =
      .query :: reads start apply (next start) (working [] []) := rfl

@[simp] theorem reads_read_registry (next : σ → Handler σ ω φ) (pending sent : List ω) :
    reads start apply (.read .registry next) (working pending sent) =
      .query :: reads start apply (next (sent.foldl apply start)) (working pending sent) := rfl

@[simp] theorem exec_guarded (next : Option σ → Handler σ ω φ) (pending sent : List ω) :
    exec start apply failed (.guarded next) none (working pending sent) =
      exec start apply failed (next (some (sent.foldl apply start))) none
        (working pending sent) := rfl

@[simp] theorem exec_session (next : ℕ → Handler σ ω φ) (pending sent : List ω) :
    exec start apply failed (.session next) none (working pending sent) =
      exec start apply failed (next 0) none (working pending sent) := rfl

@[simp] theorem exec_add_registry (x : ω) (next : Handler σ ω φ) (pending sent : List ω) :
    exec start apply failed (.add .registry x next) none (working pending sent) =
      exec start apply failed next none (working (pending ++ [x]) sent) := rfl

@[simp] theorem exec_add_object (x : ω) (next : Handler σ ω φ) (pending sent : List ω) :
    exec start apply failed (.add (.object 0) x next) none (working pending sent) =
      exec start apply failed next none (working (pending ++ [x]) sent) := rfl

theorem exec_addAll {on : Handle} (hon : on = .registry ∨ on = .object 0) (ws : List ω)
    (next : Handler σ ω φ) (pending sent : List ω) :
    exec start apply failed (.addAll on ws next) none (working pending sent) =
      exec start apply failed next none (working (pending ++ ws) sent) := by
  induction ws generalizing pending with
  | nil => rw [List.append_nil]; rfl
  | cons w ws ih =>
    have hadd : exec start apply failed (.addAll on (w :: ws) next) none (working pending sent) =
        exec start apply failed (.addAll on ws next) none (working (pending ++ [w]) sent) := by
      rcases hon with rfl | rfl <;> rfl
    rw [hadd, ih, List.append_assoc, List.singleton_append]

@[simp] theorem exec_flush (next : Handler σ ω φ) (pending sent : List ω) :
    exec start apply failed (.flush (.object 0) next) none (working pending sent) =
      exec start apply failed next none (working [] (sent ++ pending)) := rfl

@[simp] theorem exec_commit (next : Handler σ ω φ) (pending sent : List ω) :
    exec start apply failed (.commit next) none (working pending sent) =
      exec start apply failed next none (rendering (sent ++ pending)) := rfl

@[simp] theorem exec_touch (next : Option σ → Handler σ ω φ) (committed : List ω) :
    exec start apply failed (.touch 0 next) none (rendering committed) =
      exec start apply failed (next (some (committed.foldl apply start))) none
        (rendering committed) := by
  show exec start apply failed (next (some ((committed ++ []).foldl apply start))) none _ = _
  rw [List.append_nil]

@[simp] theorem exec_done (committed : List ω) :
    exec start apply failed (.done : Handler σ ω φ) none (rendering committed) =
      ⟨.ok (), committed⟩ := rfl

@[simp] theorem exec_raise_start (e : φ) :
    exec start apply failed (.raise e : Handler σ ω φ) none {} = ⟨.error e, []⟩ := rfl

@[simp] theorem exec_raise (e : φ) (pending sent : List ω) :
    exec start apply failed (.raise e : Handler σ ω φ) none (working pending sent) =
      ⟨.error e, []⟩ := rfl

end OneSession

end UnitOfWork
