import Mathlib

/-!
# Reading a text from its front

A reader takes a value off the front of a text, or fails.  A text *reads as* a value if the
reader takes just that text whatever follows it; such texts can be put one after another, and
what stands in the sequence is found again.

* `Reads.bind`, `Reads.map`, `Reads.literal`: how readings compose.
* `readLines_flatMap`: lines that are read one by one.
-/

/-- Takes a value off the front of a text. -/
def TextReader (σ α : Type) : Type := List σ → Option (α × List σ)

namespace TextReader

variable {σ α β : Type}

instance : Monad (TextReader σ) where
  pure a s := some (a, s)
  bind r f s :=
    match r s with
    | some (a, s') => f a s'
    | none => none

def fail : TextReader σ α := fun _ => none

/-- The value, if there is one. -/
def orFail : Option α → TextReader σ α
  | some a => pure a
  | none => fail

/-- The symbol at the front. -/
def next : TextReader σ σ
  | [] => none
  | c :: s => some (c, s)

/-- Drop the symbols at the front that are blank. -/
def skip (blank : σ → Bool) : TextReader σ Unit := fun s => some ((), s.dropWhile blank)

/-- Take the given symbol. -/
def symbol [DecidableEq σ] (c : σ) : TextReader σ Unit := do
  let d ← next
  if d = c then pure () else fail

/-- Take the given symbols. -/
def literal [DecidableEq σ] : List σ → TextReader σ Unit
  | [] => pure ()
  | c :: s => do
    symbol c
    literal s

/-- Items, one after another, until the symbol `stop`; at most so many. -/
def itemsUntil [DecidableEq σ] (stop : σ) (item : TextReader σ α) : ℕ → TextReader σ (List α)
  | 0 => fail
  | n + 1 => fun s =>
    if s.head? = some stop then some ([], s.tail)
    else (do
      let a ← item
      let as ← itemsUntil stop item n
      pure (a :: as)) s

/-- Run a reader that is told how long the text is. -/
def withLength (r : ℕ → TextReader σ α) : TextReader σ α := fun s => r s.length s

/-- The value of a whole text. -/
def readWhole (r : TextReader σ α) (s : List σ) : Option α :=
  match r s with
  | some (a, []) => some a
  | _ => none

/-- The values of the lines of a text, where the symbol `newline` ends each line. -/
def readLines [DecidableEq σ] (newline : σ) (r : TextReader σ α) (s : List σ) : Option (List α) :=
  (s.splitOn newline).dropLast.mapM r.readWhole

theorem run_bind (r : TextReader σ α) (f : α → TextReader σ β) (s : List σ) :
    (r >>= f) s = (r s).bind fun p => f p.1 p.2 := by
  change (match r s with | some (a, s') => f a s' | none => none) = _
  cases r s <;> rfl

/-! ## What a text reads as -/

/-- The reader takes just this text, whatever follows it. -/
def Reads (r : TextReader σ α) (t : List σ) (a : α) : Prop := ∀ rest, r (t ++ rest) = some (a, rest)

namespace Reads

variable {r : TextReader σ α} {f : α → TextReader σ β} {t u : List σ} {a : α} {b : β}

protected theorem pure (a : α) : Reads (pure a : TextReader σ α) [] a := fun _ => rfl

theorem bind (hr : Reads r t a) (hf : Reads (f a) u b) : Reads (r >>= f) (t ++ u) b := by
  intro rest
  rw [run_bind, List.append_assoc, hr (u ++ rest)]
  exact hf rest

/-- A value that is only changed on its way. -/
theorem map (g : α → β) (hr : Reads r t a) : Reads (r >>= fun x => pure (g x)) t (g a) := by
  have h := hr.bind (f := fun x => pure (g x)) (Reads.pure (g a))
  rwa [List.append_nil] at h

theorem orFail {o : Option α} (h : o = some a) :
    Reads (TextReader.orFail o : TextReader σ α) [] a := by
  rw [h]
  exact Reads.pure a

/-- The first symbol is taken, and what follows depends on it. -/
theorem next {f : σ → TextReader σ β} {c : σ} (h : Reads (f c) u b) :
    Reads (TextReader.next >>= f) (c :: u) b := fun rest => h rest

theorem symbol [DecidableEq σ] (c : σ) : Reads (TextReader.symbol c) [c] () := by
  refine Reads.next ?_
  rw [if_pos rfl]
  exact Reads.pure ()

theorem literal [DecidableEq σ] (s : List σ) : Reads (TextReader.literal s) s () := by
  induction s with
  | nil => exact Reads.pure ()
  | cons c s ih => exact (Reads.symbol c).bind ih

/-- A text that does not begin with a blank. -/
theorem skip {blank : σ → Bool} {f : Unit → TextReader σ β} {c : σ} (hc : blank c = false)
    (h : Reads (f ()) (c :: u) b) : Reads (TextReader.skip blank >>= f) (c :: u) b := by
  intro rest
  have hdrop : (c :: u ++ rest).dropWhile blank = c :: u ++ rest := by
    rw [List.cons_append, List.dropWhile_cons_of_neg (Bool.not_eq_true _ ▸ hc)]
  change f () ((c :: u ++ rest).dropWhile blank) = _
  rw [hdrop]
  exact h rest

/-- Blanks in front of a text. -/
theorem blanks {blank : σ → Bool} {f : Unit → TextReader σ β} {blanks : List σ}
    (hblanks : ∀ d ∈ blanks, blank d = true) (h : Reads (TextReader.skip blank >>= f) u b) :
    Reads (TextReader.skip blank >>= f) (blanks ++ u) b := by
  intro rest
  change f () ((blanks ++ u ++ rest).dropWhile blank) = _
  rw [List.append_assoc, List.dropWhile_append_of_pos hblanks]
  exact h rest

/-- A reader that is told a length at least as large as that of the text. -/
theorem withLength {r : ℕ → TextReader σ α} (h : ∀ n, t.length ≤ n → Reads (r n) t a) :
    Reads (TextReader.withLength r) t a := fun rest =>
  h _ (by rw [List.length_append]; exact Nat.le_add_right _ _) rest

theorem readWhole (h : Reads r t a) : r.readWhole t = some a := by
  have hrun : r t = some (a, []) := by
    have hrun := h []
    rwa [List.append_nil] at hrun
  rw [TextReader.readWhole, hrun]

end Reads

/-! ## Items -/

section Items

variable [DecidableEq σ] {stop : σ} {item : TextReader σ α}

theorem itemsUntil_stop (n : ℕ) (s : List σ) :
    itemsUntil stop item (n + 1) (stop :: s) = some ([], s) := if_pos rfl

/-- An item that does not begin with the symbol that ends the items. -/
theorem itemsUntil_cons {n : ℕ} {s s' : List σ} {a : α} (hstart : s.head? ≠ some stop)
    (hitem : item s = some (a, s')) :
    itemsUntil stop item (n + 1) s =
      (itemsUntil stop item n s').map fun r => (a :: r.1, r.2) := by
  refine (if_neg hstart).trans ?_
  rw [run_bind, hitem, Option.bind_some, run_bind]
  cases itemsUntil stop item n s' <;> rfl

end Items

/-! ## Lines -/

section Lines

variable [DecidableEq σ] {newline : σ}

/-- **Lines are found again**: of some values, each written on a line of its own. -/
theorem readLines_flatMap {r : TextReader σ β} {write : α → List σ} {value : α → β} {as : List α}
    (hread : ∀ a ∈ as, Reads r (write a) (value a)) (hline : ∀ a ∈ as, newline ∉ write a) :
    readLines newline r (as.flatMap fun a => write a ++ [newline]) = some (as.map value) := by
  have hsplit : (as.flatMap fun a => write a ++ [newline]).splitOn newline =
      as.map write ++ [[]] := by
    induction as with
    | nil => rfl
    | cons a as ih =>
      rw [List.forall_mem_cons] at hread hline
      rw [List.flatMap_cons, List.append_assoc, List.singleton_append,
        List.splitOn_append_cons_self_of_not_mem hline.1, ih hread.2 hline.2]
      rfl
  rw [readLines, hsplit, List.dropLast_concat]
  clear hsplit hline
  induction as with
  | nil => rfl
  | cons a as ih =>
    rw [List.forall_mem_cons] at hread
    rw [List.map_cons, List.mapM_cons, hread.1.readWhole, ih hread.2]
    rfl

end Lines

end TextReader
