import EpsCloud.Library.Runs

/-!
# Transactions under READ COMMITTED

A store holds rows by key, a log that is only appended to, and a rest that no
transaction writes.  A transaction is a tree of statements.  Several of them run
interleaved on one store: a read sees what is committed when it starts together
with the transaction's own writes, a write of a row waits for the other open
transaction that wrote it and then acts on the row that is there, and a commit
publishes all writes at once.

Nothing in this stops a transaction from writing what it worked out from rows that
were overwritten in between.  It is stopped by one condition on the commits:

* `CommitsUnread`: a transaction that commits has not written a row that another
  open one has already read.
* `Serial.step`: a step with `CommitsUnread` keeps the store equal to what the
  committed transactions give one after another, in the order of their commits.
* `serial_run`: so every run of such steps is serial.
-/

namespace ReadCommitted

variable {σ κ ε β ι : Type} {ν : κ → Type}

/-- A store of rows, a log, and a rest. -/
structure RowStore (σ κ ε β : Type) (ν : κ → Type) where
  get : σ → (k : κ) → Option (ν k)
  put : σ → (k : κ) → Option (ν k) → σ
  append : σ → ε → σ
  rest : σ → β
  get_put_self : ∀ s k v, get (put s k v) k = v
  get_put_ne : ∀ s k v k', k' ≠ k → get (put s k v) k' = get s k'
  get_append : ∀ s e k, get (append s e) k = get s k
  rest_put : ∀ s k v, rest (put s k v) = rest s
  rest_append : ∀ s e, rest (append s e) = rest s

/-- A transaction.  A read names the rows it looks at and goes on with what it sees; the rest
of the store may be looked at by every read.  The change of a write is worked out on the row
that is there when the write happens, and fails where it is `none`. -/
inductive Program (σ κ ε : Type) (ν : κ → Type) where
  | read (rows : κ → Bool) (next : σ → Program σ κ ε ν)
  | write (k : κ) (change : Option (ν k) → Option (Option (ν k))) (next : Program σ κ ε ν)
  | append (e : ε) (next : Program σ κ ε ν)
  | commit
  | abort

/-- What a transaction has done to the store so far. -/
inductive Effect (κ ε : Type) (ν : κ → Type) where
  | row (k : κ) (value : Option (ν k))
  | entry (e : ε)

/-- The row that an effect writes. -/
def Effect.key : Effect κ ε ν → Option κ
  | .row k _ => some k
  | .entry _ => none

/-- The rows that a list of effects writes. -/
def keys (effects : List (Effect κ ε ν)) : List κ := effects.filterMap Effect.key

@[simp] theorem mem_keys_concat {effects : List (Effect κ ε ν)} {e : Effect κ ε ν} {k : κ} :
    k ∈ keys (effects ++ [e]) ↔ k ∈ keys effects ∨ e.key = some k := by
  rw [keys, keys, List.filterMap_append, List.mem_append]
  simp

namespace RowStore

variable (R : RowStore σ κ ε β ν)

/-- One effect on a store. -/
def apply (s : σ) : Effect κ ε ν → σ
  | .row k v => R.put s k v
  | .entry e => R.append s e

/-- The store as a transaction with these effects sees it. -/
def view (s : σ) (effects : List (Effect κ ε ν)) : σ := effects.foldl R.apply s

@[simp] theorem view_concat (s : σ) (effects : List (Effect κ ε ν)) (e : Effect κ ε ν) :
    R.view s (effects ++ [e]) = R.apply (R.view s effects) e := by
  rw [view, List.foldl_concat, view]

theorem get_apply_of_ne (s : σ) {e : Effect κ ε ν} {k : κ} (h : e.key ≠ some k) :
    R.get (R.apply s e) k = R.get s k := by
  cases e with
  | row k' v => exact R.get_put_ne s k' v k fun hk => h (congrArg some hk.symm)
  | entry e => exact R.get_append s e k

theorem rest_apply (s : σ) (e : Effect κ ε ν) : R.rest (R.apply s e) = R.rest s := by
  cases e with
  | row k v => exact R.rest_put s k v
  | entry e => exact R.rest_append s e

/-- Effects leave the rows they do not write. -/
theorem get_view_of_notMem (s : σ) {effects : List (Effect κ ε ν)} {k : κ}
    (h : k ∉ keys effects) : R.get (R.view s effects) k = R.get s k := by
  induction effects using List.reverseRecOn with
  | nil => rfl
  | append_singleton effects e ih =>
    rw [mem_keys_concat, not_or] at h
    rw [view_concat, R.get_apply_of_ne _ h.2, ih h.1]

@[simp] theorem rest_view (s : σ) (effects : List (Effect κ ε ν)) :
    R.rest (R.view s effects) = R.rest s := by
  induction effects using List.reverseRecOn with
  | nil => rfl
  | append_singleton effects e ih => rw [view_concat, rest_apply, ih]

/-- A row that two stores agree on is seen alike after the same effects. -/
theorem get_view_congr {s s' : σ} {k : κ} (h : R.get s k = R.get s' k)
    (effects : List (Effect κ ε ν)) :
    R.get (R.view s effects) k = R.get (R.view s' effects) k := by
  induction effects using List.reverseRecOn with
  | nil => exact h
  | append_singleton effects e ih =>
    rw [view_concat, view_concat]
    by_cases hk : e.key = some k
    · cases e with
      | row k' v =>
        obtain rfl := Option.some.inj hk
        rw [apply, apply, R.get_put_self, R.get_put_self]
      | entry e => cases hk
    · rw [R.get_apply_of_ne _ hk, R.get_apply_of_ne _ hk, ih]

end RowStore

/-! ## One transaction -/

namespace Program

variable (R : RowStore σ κ ε β ν)

/-- The store that a transaction leaves when it runs alone, unless it aborts. -/
def alone : Program σ κ ε ν → σ → Option σ
  | read _ next, s => alone (next s) s
  | write k change next, s => (change (R.get s k)).bind fun v => alone next (R.put s k v)
  | append e next, s => alone next (R.append s e)
  | commit, s => some s
  | abort, _ => none

/-- Every read goes on with the rows it names, and the rest, only. -/
def Reads : Program σ κ ε ν → Prop
  | read rows next =>
    (∀ s s', R.rest s = R.rest s' → (∀ k, rows k = true → R.get s k = R.get s' k) →
      next s = next s') ∧ ∀ s, Reads (next s)
  | write _ _ next => Reads next
  | append _ next => Reads next
  | commit => True
  | abort => True

/-- Nothing is left but to commit. -/
def isCommit : Program σ κ ε ν → Bool
  | commit => true
  | _ => false

/-- Look at the rest of the store. -/
def readRest (next : σ → Program σ κ ε ν) : Program σ κ ε ν := read (fun _ => false) next

/-- Go on with a result, or abort where there is none. -/
def check {φ α : Type} (x : Except φ α) (next : α → Program σ κ ε ν) : Program σ κ ε ν :=
  match x with
  | .ok a => next a
  | .error _ => abort

/-- Append several entries. -/
def appendAll (es : List ε) (next : Program σ κ ε ν) : Program σ κ ε ν := es.foldr append next

theorem alone_appendAll (es : List ε) (next : Program σ κ ε ν) (s : σ) :
    (appendAll es next).alone R s = next.alone R (es.foldl R.append s) := by
  induction es generalizing s with
  | nil => rfl
  | cons e es ih => exact ih (R.append s e)

theorem reads_readRest {next : σ → Program σ κ ε ν}
    (hrest : ∀ s s', R.rest s = R.rest s' → next s = next s') (h : ∀ s, (next s).Reads R) :
    (readRest next).Reads R :=
  ⟨fun s s' hs _ => hrest s s' hs, h⟩

theorem reads_check {φ α : Type} (x : Except φ α) {next : α → Program σ κ ε ν}
    (h : ∀ a, (next a).Reads R) : (check x next).Reads R := by
  cases x with
  | ok a => exact h a
  | error e => exact trivial

theorem reads_appendAll (es : List ε) {next : Program σ κ ε ν} (h : next.Reads R) :
    (appendAll es next).Reads R := by
  induction es with
  | nil => exact h
  | cons e es ih => exact ih

/-- A transaction leaves the rest of the store. -/
theorem rest_of_alone {p : Program σ κ ε ν} {s s' : σ} (h : p.alone R s = some s') :
    R.rest s' = R.rest s := by
  induction p generalizing s with
  | read rows next ih => exact ih s h
  | write k change next ih =>
    obtain ⟨v, -, hv⟩ := Option.bind_eq_some_iff.mp h
    rw [ih hv, R.rest_put]
  | append e next ih => rw [ih h, R.rest_append]
  | commit => rw [Option.some.inj h]
  | abort => cases h

end Program

/-- A transaction that is under way: what it has done, which rows it has read, and what is
left of it. -/
structure Tx (σ κ ε : Type) (ν : κ → Type) where
  effects : List (Effect κ ε ν)
  reads : List (κ → Bool)
  left : Program σ κ ε ν

/-- A transaction has run up to here, over a store that did not change. -/
inductive Path (R : RowStore σ κ ε β ν) (s : σ) (p : Program σ κ ε ν) : Tx σ κ ε ν → Prop
  | start : Path R s p ⟨[], [], p⟩
  | read {effects reads rows next} (h : Path R s p ⟨effects, reads, .read rows next⟩) :
    Path R s p ⟨effects, reads ++ [rows], next (R.view s effects)⟩
  | write {effects reads k change next v} (h : Path R s p ⟨effects, reads, .write k change next⟩)
    (hv : change (R.get (R.view s effects) k) = some v) :
    Path R s p ⟨effects ++ [.row k v], reads, next⟩
  | append {effects reads e next} (h : Path R s p ⟨effects, reads, .append e next⟩) :
    Path R s p ⟨effects ++ [.entry e], reads, next⟩

namespace Path

variable {R : RowStore σ κ ε β ν} {s s' : σ} {p : Program σ κ ε ν} {t : Tx σ κ ε ν}

/-- What is left of a transaction, on the store as it sees it, gives what the whole gives. -/
theorem alone_eq (h : Path R s p t) : p.alone R s = t.left.alone R (R.view s t.effects) := by
  induction h with
  | start => rfl
  | read _ ih => exact ih
  | write _ hv ih =>
    rw [ih, Program.alone, hv, Option.bind_some, RowStore.view_concat]
    rfl
  | append _ ih =>
    rw [ih, Program.alone, RowStore.view_concat]
    rfl

theorem reads_left (hp : p.Reads R) (h : Path R s p t) : t.left.Reads R := by
  induction h with
  | start => exact hp
  | read _ ih => exact ih.2 _
  | write _ _ ih => exact ih
  | append _ ih => exact ih

/-- **Rebasing.**  A transaction that has read and written only rows on which two stores agree
has run the same way over the other store. -/
theorem rebase (hp : p.Reads R) (hrest : R.rest s = R.rest s') (h : Path R s p t)
    (hread : ∀ rows ∈ t.reads, ∀ k, rows k = true → R.get s k = R.get s' k)
    (hwrite : ∀ k ∈ keys t.effects, R.get s k = R.get s' k) : Path R s' p t := by
  induction h with
  | start => exact .start
  | @read effects reads rows next h ih =>
    have h' := ih (fun r hr => hread r (List.mem_append_left _ hr)) hwrite
    have hview : next (R.view s effects) = next (R.view s' effects) := by
      refine (h.reads_left hp).1 _ _ (by rw [R.rest_view, R.rest_view, hrest]) fun k hk => ?_
      exact R.get_view_congr (hread rows (by simp) k hk) effects
    rw [hview]
    exact h'.read
  | @write effects reads k change next v h hv ih =>
    have h' := ih hread fun k' hk' => hwrite k' (by rw [mem_keys_concat]; exact Or.inl hk')
    refine h'.write ?_
    rw [← R.get_view_congr (hwrite k (by rw [mem_keys_concat]; exact Or.inr rfl)) effects, hv]
  | @append effects reads e next h ih =>
    exact (ih hread fun k' hk' => hwrite k' (by rw [mem_keys_concat]; exact Or.inl hk')).append

end Path

/-! ## Transactions side by side -/

/-- The store as it is committed, the open transactions, and the committed ones in the order
of their commits. -/
structure World (σ κ ε ι : Type) (ν : κ → Type) where
  store : σ
  tx : ι → Option (Tx σ κ ε ν)
  order : List ι

/-- All transactions are open and have done nothing. -/
def World.start (progs : ι → Program σ κ ε ν) (s : σ) : World σ κ ε ι ν :=
  { store := s, tx := fun i => some ⟨[], [], progs i⟩, order := [] }

/-- Transaction `i` goes on as `t`, or is over. -/
def World.set [DecidableEq ι] (w : World σ κ ε ι ν) (i : ι) (t : Option (Tx σ κ ε ν)) :
    World σ κ ε ι ν :=
  { w with tx := Function.update w.tx i t }

/-- Another open transaction has written the row. -/
def World.Locked (w : World σ κ ε ι ν) (i : ι) (k : κ) : Prop :=
  ∃ j, j ≠ i ∧ ∃ u ∈ w.tx j, k ∈ keys u.effects

instance [Fintype ι] [DecidableEq ι] [DecidableEq κ] (w : World σ κ ε ι ν) (i : ι) (k : κ) :
    Decidable (w.Locked i k) :=
  inferInstanceAs (Decidable (∃ j, j ≠ i ∧ ∃ u ∈ w.tx j, k ∈ keys u.effects))

/-- The next statement of transaction `i`.  A write that has to wait leaves everything as it
is. -/
def step [Fintype ι] [DecidableEq ι] [DecidableEq κ] (R : RowStore σ κ ε β ν)
    (w : World σ κ ε ι ν) (i : ι) : World σ κ ε ι ν :=
  match w.tx i with
  | none => w
  | some ⟨effects, reads, left⟩ =>
    match left with
    | .read rows next =>
      w.set i (some ⟨effects, reads ++ [rows], next (R.view w.store effects)⟩)
    | .write k change next =>
      if w.Locked i k then w
      else
        match change (R.get (R.view w.store effects) k) with
        | none => w.set i none
        | some v => w.set i (some ⟨effects ++ [.row k v], reads, next⟩)
    | .append e next => w.set i (some ⟨effects ++ [.entry e], reads, next⟩)
    | .commit =>
      { store := R.view w.store effects
        tx := Function.update w.tx i none
        order := w.order ++ [i] }
    | .abort => w.set i none

/-- If transaction `i` commits now, no other open one has read a row that it wrote. -/
def CommitsUnread (w : World σ κ ε ι ν) (i : ι) : Prop :=
  ∀ t ∈ w.tx i, t.left.isCommit = true → ∀ j, j ≠ i → ∀ u ∈ w.tx j, ∀ k ∈ keys t.effects,
    ∀ rows ∈ u.reads, rows k = false

instance [Fintype ι] [DecidableEq ι] (w : World σ κ ε ι ν) (i : ι) :
    Decidable (CommitsUnread w i) :=
  inferInstanceAs (Decidable (∀ t ∈ w.tx i, t.left.isCommit = true → ∀ j, j ≠ i → ∀ u ∈ w.tx j,
    ∀ k ∈ keys t.effects, ∀ rows ∈ u.reads, rows k = false))

section Invariant

variable (R : RowStore σ κ ε β ν)

/-- The committed transactions, one after another. -/
def serially (progs : ι → Program σ κ ε ν) (s : σ) (order : List ι) : Option σ :=
  order.foldlM (fun s i => (progs i).alone R s) s

/-- The store is what the committed transactions give one after another, every open one has run
as if the store had always been what it is now, and no row is written by two open ones. -/
structure Serial (progs : ι → Program σ κ ε ν) (s₀ : σ) (w : World σ κ ε ι ν) : Prop where
  committed : serially R progs s₀ w.order = some w.store
  opened : ∀ i, ∀ t ∈ w.tx i, Path R w.store (progs i) t
  apart : ∀ i j, i ≠ j → ∀ t ∈ w.tx i, ∀ u ∈ w.tx j, ∀ k ∈ keys t.effects, k ∉ keys u.effects
  closed : ∀ i ∈ w.order, w.tx i = none
  once : w.order.Nodup

variable {R} {progs : ι → Program σ κ ε ν} {s₀ : σ} {w : World σ κ ε ι ν}

theorem serially_concat {order : List ι} {i : ι} {s s' : σ} :
    serially R progs s (order ++ [i]) = some s' ↔
      ∃ s₁, serially R progs s order = some s₁ ∧ (progs i).alone R s₁ = some s' := by
  rw [serially, List.foldlM_append, Option.bind_eq_bind, Option.bind_eq_some_iff]
  simp [serially]

theorem rest_of_serially {order : List ι} {s s' : σ}
    (h : serially R progs s order = some s') : R.rest s' = R.rest s := by
  induction order using List.reverseRecOn generalizing s' with
  | nil => rw [Option.some.inj h]
  | append_singleton order i ih =>
    obtain ⟨s₁, hs₁, hlast⟩ := serially_concat.mp h
    rw [Program.rest_of_alone R hlast, ih hs₁]

theorem serial_start (progs : ι → Program σ κ ε ν) (s₀ : σ) :
    Serial R progs s₀ (World.start progs s₀) where
  committed := rfl
  opened := by
    rintro i t ht
    cases ht
    exact .start
  apart := by
    rintro i j - t ht u - k hk
    cases ht
    cases hk
  closed := fun i hi => absurd hi List.not_mem_nil
  once := List.nodup_nil

/-- The store is what the last committed transaction leaves on some store with the same
rest. -/
theorem Serial.last (h : Serial R progs s₀ w) {i : ι} (hi : w.order.getLast? = some i) :
    ∃ s, R.rest s = R.rest s₀ ∧ (progs i).alone R s = some w.store := by
  obtain ⟨before, hbefore⟩ := List.getLast?_eq_some_iff.mp hi
  have hrun := h.committed
  rw [hbefore] at hrun
  obtain ⟨s, hs, hlast⟩ := serially_concat.mp hrun
  exact ⟨s, rest_of_serially hs, hlast⟩

end Invariant

section Steps

variable [DecidableEq ι] {R : RowStore σ κ ε β ν} {progs : ι → Program σ κ ε ν} {s₀ : σ}
  {w : World σ κ ε ι ν}

@[simp] theorem World.tx_set (w : World σ κ ε ι ν) (i : ι) (t : Option (Tx σ κ ε ν)) :
    (w.set i t).tx = Function.update w.tx i t := rfl

/-- An open transaction of the changed world is the changed one, or was there before. -/
theorem World.mem_set {i j : ι} {t : Option (Tx σ κ ε ν)} {u : Tx σ κ ε ν}
    (h : u ∈ (w.set i t).tx j) : (j = i ∧ u ∈ t) ∨ (j ≠ i ∧ u ∈ w.tx j) := by
  rw [World.tx_set] at h
  by_cases hj : j = i
  · subst hj
    rw [Function.update_self] at h
    exact Or.inl ⟨rfl, h⟩
  · rw [Function.update_of_ne hj] at h
    exact Or.inr ⟨hj, h⟩

/-- A transaction that is over leaves the other ones. -/
theorem World.mem_set_none {i j : ι} {u : Tx σ κ ε ν} (h : u ∈ (w.set i none).tx j) :
    j ≠ i ∧ u ∈ w.tx j := by
  rcases World.mem_set h with ⟨-, hu⟩ | hu
  · cases hu
  · exact hu

theorem World.tx_set_none {i j : ι} (h : w.tx j = none ∨ j = i) : (w.set i none).tx j = none := by
  rw [World.tx_set]
  by_cases hj : j = i
  · rw [hj, Function.update_self]
  · rw [Function.update_of_ne hj]
    exact h.resolve_right hj

/-- A transaction that stays open, and writes at most rows that no other open one wrote. -/
theorem Serial.advance (h : Serial R progs s₀ w) {i : ι} {t t' : Tx σ κ ε ν}
    (ht : t ∈ w.tx i) (hpath : Path R w.store (progs i) t')
    (hkeys : ∀ k ∈ keys t'.effects, k ∈ keys t.effects ∨ ¬ w.Locked i k) :
    Serial R progs s₀ (w.set i (some t')) := by
  have hopen : ∀ j, j ≠ i → ∀ u ∈ w.tx j, ∀ k ∈ keys t'.effects, k ∉ keys u.effects := by
    intro j hj u hu k hk hk'
    rcases hkeys k hk with hold | hfree
    · exact h.apart i j (Ne.symm hj) t ht u hu k hold hk'
    · exact hfree ⟨j, hj, u, hu, hk'⟩
  refine ⟨h.committed, ?_, ?_, ?_, h.once⟩
  · intro j u hu
    rcases World.mem_set hu with ⟨rfl, hown⟩ | ⟨-, hother⟩
    · cases hown
      exact hpath
    · exact h.opened j u hother
  · intro j j' hne u hu u' hu' k hk hk'
    rcases World.mem_set hu with ⟨rfl, hown⟩ | ⟨hj, hother⟩ <;>
      rcases World.mem_set hu' with ⟨hj', hown'⟩ | ⟨hj', hother'⟩
    · exact hne hj'.symm
    · cases hown
      exact hopen j' hj' u' hother' k hk hk'
    · cases hown'
      exact hopen j hj u hother k hk' hk
    · exact h.apart j j' hne u hother u' hother' k hk hk'
  · intro j hj
    have hne : j ≠ i := by
      rintro rfl
      rw [h.closed j hj] at ht
      cases ht
    exact (Function.update_of_ne hne _ _).trans (h.closed j hj)

/-- A transaction that is over without a commit. -/
theorem Serial.close (h : Serial R progs s₀ w) (i : ι) : Serial R progs s₀ (w.set i none) where
  committed := h.committed
  opened := fun j u hu => h.opened j u (World.mem_set_none hu).2
  apart := fun j j' hne u hu u' hu' =>
    h.apart j j' hne u (World.mem_set_none hu).2 u' (World.mem_set_none hu').2
  closed := fun j hj => World.tx_set_none (Or.inl (h.closed j hj))
  once := h.once

/-- **A commit.**  No other open transaction has read what this one wrote, so they all have run
as if it had committed before. -/
theorem Serial.commit (h : Serial R progs s₀ w) (hp : ∀ i, (progs i).Reads R) {i : ι}
    {effects : List (Effect κ ε ν)} {reads : List (κ → Bool)}
    (ht : (⟨effects, reads, .commit⟩ : Tx σ κ ε ν) ∈ w.tx i) (hunread : CommitsUnread w i) :
    Serial R progs s₀
      { store := R.view w.store effects
        tx := (w.set i none).tx
        order := w.order ++ [i] } := by
  have hnew : i ∉ w.order := fun hi => by
    rw [h.closed i hi] at ht
    cases ht
  refine ⟨?_, ?_, ?_, ?_, ?_⟩
  · exact serially_concat.mpr ⟨w.store, h.committed, (h.opened i _ ht).alone_eq⟩
  · intro j u hu
    obtain ⟨hj, hu⟩ := World.mem_set_none hu
    refine (h.opened j u hu).rebase (hp j) (R.rest_view _ _).symm ?_ ?_
    · intro rows hrows k hk
      refine (R.get_view_of_notMem _ fun hmem => ?_).symm
      rw [hunread _ ht rfl j hj u hu k hmem rows hrows] at hk
      cases hk
    · intro k hk
      exact (R.get_view_of_notMem _ (h.apart j i hj u hu _ ht k hk)).symm
  · exact (h.close i).apart
  · intro j hj
    rw [List.mem_append, List.mem_singleton] at hj
    exact World.tx_set_none (hj.imp_left (h.closed j))
  · rw [← List.concat_eq_append]
    exact h.once.concat hnew

variable [Fintype ι] [DecidableEq κ]

/-- **One statement.** -/
theorem Serial.step (h : Serial R progs s₀ w) (hp : ∀ i, (progs i).Reads R) {i : ι}
    (hunread : CommitsUnread w i) : Serial R progs s₀ (step R w i) := by
  rw [ReadCommitted.step]
  cases ht : w.tx i with
  | none => exact h
  | some t =>
    obtain ⟨effects, reads, left⟩ := t
    have hpath := h.opened i _ ht
    cases left with
    | read rows next => exact h.advance ht hpath.read fun k hk => Or.inl hk
    | write k change next =>
      show Serial R progs s₀ (if w.Locked i k then w else _)
      by_cases hlock : w.Locked i k
      · rw [if_pos hlock]
        exact h
      · rw [if_neg hlock]
        cases hv : change (R.get (R.view w.store effects) k) with
        | none => exact h.close i
        | some v =>
          refine h.advance ht (hpath.write hv) fun k' hk' => ?_
          rcases mem_keys_concat.mp hk' with hold | hnew
          · exact Or.inl hold
          · obtain rfl := Option.some.inj hnew
            exact Or.inr hlock
    | append e next =>
      refine h.advance ht hpath.append fun k hk => Or.inl ?_
      exact (mem_keys_concat.mp hk).resolve_right fun he => by cases he
    | commit => exact h.commit hp ht hunread
    | abort => exact h.close i

/-- **Runs without overwritten reads are serial.** -/
theorem serial_run (hp : ∀ i, (progs i).Reads R) (s₀ : σ) {schedule : List ι}
    (hunread : ∀ x ∈ Runs.trace (step R) (World.start progs s₀) schedule,
      CommitsUnread x.1 x.2) :
    Serial R progs s₀ (schedule.foldl (step R) (World.start progs s₀)) :=
  Runs.foldl_invariant (I := Serial R progs s₀) (C := CommitsUnread)
    (fun _ _ h hi => h.step hp hi) (serial_start progs s₀) hunread

end Steps

end ReadCommitted
