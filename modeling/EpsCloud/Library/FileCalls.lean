import EpsCloud.Library.FileSystem
import EpsCloud.Library.Scripts

/-!
# Programs that call a file system

A program makes its calls one after the other, and any of them may be refused; a write that
is refused may have written something else than it should, a removal that is refused may have
removed a part, and a listing passes over the directories that it cannot open.  A temporary
directory is made under the first free one of some names, and is removed with everything in it
when the program leaves it; if that is refused, it is left behind, and the program raises.

* `Inside`: what a call below a path leaves outside of it.
* `mkdirs_eq_ok`: what making a directory with its parents leaves.
* `withTemporary_cases`, `keepsOr_withTemporary`: a run in a temporary directory.
-/

/-- A file system, and how many calls have been made. -/
structure Disk (ν β : Type) where
  files : FileSystem ν β
  calls : ℕ

/-- What a call meets that does not go through. -/
inductive Fault (ν β : Type) where
  | refused
  /-- A write is cut off after something was written. -/
  | cut (content : β)
  /-- A removal stops after it has removed what is at these paths, below the one to remove. -/
  | removed (paths : List (List ν))
  /-- A listing cannot open these directories, when it walks through them and when it gives their
  entries. -/
  | unlisted (walked entered : List (List ν))

/-- Which calls meet a fault, and how a program raises what the file system reports. -/
structure FileCalls (ν β ε : Type) where
  fault : ℕ → Option (Fault ν β)
  raised : Errno → ε

namespace FileCalls

open Script

variable {ν β ε α : Type} [DecidableEq ν] (sys : FileCalls ν β ε)

/-! ## Calls -/

/-- A call that changes the file system: it goes through, is refused by the file system, or
meets a fault, of which `broken` says what it leaves. -/
def change (f : FileSystem ν β → Except Errno (FileSystem ν β))
    (broken : Fault ν β → FileSystem ν β → FileSystem ν β) :
    Script (Disk ν β) ε (Except Errno Unit) := fun d =>
  match sys.fault d.calls with
  | none =>
    match f d.files with
    | .ok fs => (.ok (.ok ()), ⟨fs, d.calls + 1⟩)
    | .error e => (.ok (.error e), ⟨d.files, d.calls + 1⟩)
  | some fault => (.ok (.error .refused), ⟨broken fault d.files, d.calls + 1⟩)

/-- Raise what a call reports. -/
def orRaise : Except Errno α → Script (Disk ν β) ε α
  | .ok a => pure a
  | .error e => raise (sys.raised e)

/-- Make a directory, and report how it went. -/
def tryMkdir (p : List ν) : Script (Disk ν β) ε (Except Errno Unit) :=
  sys.change (fun fs => fs.mkdir p) fun _ fs => fs

/-- What a write leaves that is cut off. -/
def cutOff (p : List ν) : Fault ν β → FileSystem ν β → FileSystem ν β
  | .cut content, fs => (fs.write p content).toOption.getD fs
  | _, fs => fs

def write (p : List ν) (content : β) : Script (Disk ν β) ε Unit :=
  sys.change (fun fs => fs.write p content) (cutOff p) >>= sys.orRaise

def renameDir (src dst : List ν) : Script (Disk ν β) ε Unit :=
  sys.change (fun fs => fs.renameDir src dst) (fun _ fs => fs) >>= sys.orRaise

/-- A call that only looks. -/
def look (f : FileSystem ν β → Except Errno α) : Script (Disk ν β) ε α := fun d =>
  match sys.fault d.calls with
  | none => sys.orRaise (f d.files) { d with calls := d.calls + 1 }
  | some _ => raise (sys.raised .refused) { d with calls := d.calls + 1 }

def read (p : List ν) : Script (Disk ν β) ε β := sys.look fun fs => fs.read p

/-- What is at a path; a link is not followed. -/
def lstat (p : List ν) : Script (Disk ν β) ε (Option (Node ν β)) :=
  sys.look fun fs => .ok (fs.node p)

/-- Does what the path leads to exist?  At most `limit` links are followed. -/
def pathExists (limit : ℕ) (p : List ν) : Script (Disk ν β) ε Bool :=
  sys.look fun fs => .ok (fs.leadsTo limit p)

/-- Is there a directory? -/
def isDir (p : List ν) : Script (Disk ν β) ε Bool := sys.look fun fs => .ok (fs.isDir p)

/-- Raise what making a directory reports, unless there may be one and there is. -/
def unlessDir (existOk : Bool) (p : List ν) (e : Errno) : Script (Disk ν β) ε Unit := do
  if existOk && (← sys.isDir p) then pure () else raise (sys.raised e)

/-- Make a directory, whose parent must be there. -/
def mkdir (existOk : Bool) (p : List ν) : Script (Disk ν β) ε Unit := do
  match ← sys.tryMkdir p with
  | .ok () => pure ()
  | .error .notFound => raise (sys.raised .notFound)
  | .error e => sys.unlessDir existOk p e

/-- Make a directory with its parents, of which at most `depth` are made. -/
def mkdirs : Bool → ℕ → List ν → Script (Disk ν β) ε Unit
  | existOk, 0, p => sys.mkdir existOk p
  | existOk, depth + 1, p => do
    match ← sys.tryMkdir p with
    | .ok () => pure ()
    | .error .notFound => do
      mkdirs true depth p.dropLast
      sys.mkdir existOk p
    | .error e => sys.unlessDir existOk p e

/-! ## Listings -/

/-- The path is given by a listing that meets the fault: its directory can be opened for its
entries, and each one above to walk through it. -/
def Given : Fault ν β → List ν → Prop
  | .unlisted walked entered, q =>
    q.dropLast ∉ entered ∧ ∀ r ∈ walked, r <+: q.dropLast → r = q.dropLast
  | _, _ => True

instance (fault : Fault ν β) (q : List ν) : Decidable (Given fault q) :=
  match fault with
  | .unlisted walked entered => inferInstanceAs (Decidable
      (q.dropLast ∉ entered ∧ ∀ r ∈ walked, r <+: q.dropLast → r = q.dropLast))
  | .refused | .cut _ | .removed _ => inferInstanceAs (Decidable True)

/-- A listing that is call number `n` does not pass over the path. -/
def Sees (n : ℕ) (q : List ν) : Prop := ∀ fault ∈ sys.fault n, Given fault q

instance (n : ℕ) (q : List ν) : Decidable (sys.Sees n q) :=
  inferInstanceAs (Decidable (∀ fault ∈ sys.fault n, Given fault q))

/-- No listing passes over the path. -/
def SeesAlways (q : List ν) : Prop := ∀ n, sys.Sees n q

/-- `Path.rglob("*")`: the paths below a directory.  What cannot be opened is passed over. -/
def rglob (list : Listing ν β) (p : List ν) : Script (Disk ν β) ε (List (List ν)) := fun d =>
  (.ok ((list.below d.files p).filter fun q => sys.Sees d.calls q), { d with calls := d.calls + 1 })

/-! ## Temporary directories -/

/-- What a removal leaves that stops. -/
def removedPartly (p : List ν) : Fault ν β → FileSystem ν β → FileSystem ν β
  | .removed paths, fs =>
    paths.foldl (fun fs q => if q = [] then fs else fs.removeTree (p ++ q)) fs
  | _, fs => fs

/-- Remove what is at a path, with everything below. -/
def removeTree (p : List ν) : Script (Disk ν β) ε Unit :=
  sys.change (fun fs => .ok (fs.removeTree p)) (removedPartly p) >>= sys.orRaise

/-- Make a directory under the first of the names that is free. -/
def makeTemporary (dir : List ν) : List ν → Script (Disk ν β) ε (List ν)
  | [] => raise (sys.raised .exists)
  | name :: names => do
    match ← sys.tryMkdir (dir ++ [name]) with
    | .ok () => pure (dir ++ [name])
    | .error .exists => makeTemporary dir names
    | .error e => raise (sys.raised e)

/-- Run a program in a temporary directory, which is removed when it is left. -/
def withTemporary (dir : List ν) (names : List ν) (body : List ν → Script (Disk ν β) ε α) :
    Script (Disk ν β) ε α := do
  let temporary ← sys.makeTemporary dir names
  (body temporary).andFinally (sys.removeTree temporary)

/-! ## What a call leaves -/

variable {sys} {t p : List ν} {d d' : Disk ν β}

omit [DecidableEq ν] in
theorem change_eq_ok {f : FileSystem ν β → Except Errno (FileSystem ν β)}
    {broken : Fault ν β → FileSystem ν β → FileSystem ν β}
    (hrun : sys.change f broken d = (.ok (.ok ()), d')) : f d.files = .ok d'.files := by
  unfold change at hrun
  split at hrun
  · split at hrun
    · next hf =>
      cases hrun
      exact hf
    · cases hrun
  · cases hrun

theorem tryMkdir_ne_error {e : ε} : sys.tryMkdir p d ≠ (.error e, d') := by
  unfold tryMkdir change
  split
  · split <;> rintro ⟨⟩
  · rintro ⟨⟩

theorem tryMkdir_eq_error {e : Errno} (hrun : sys.tryMkdir p d = (.ok (.error e), d')) :
    d'.files = d.files ∧ (e = .refused ∨ d.files.mkdir p = .error e) := by
  unfold tryMkdir change at hrun
  split at hrun
  · split at hrun
    · cases hrun
    · next hf =>
      cases hrun
      exact ⟨rfl, .inr hf⟩
  · cases hrun
    exact ⟨rfl, .inl rfl⟩

omit [DecidableEq ν] in
theorem orRaise_eq_ok_iff {r : Except Errno α} {a : α} :
    sys.orRaise r d = (.ok a, d') ↔ r = .ok a ∧ d = d' := by
  cases r with
  | ok b => rw [orRaise, pure_eq_ok_iff, Except.ok.injEq]
  | error e => exact ⟨fun h => absurd h raise_ne_ok, fun h => by cases h.1⟩

theorem write_eq_ok {content : β} (hrun : sys.write p content d = (.ok (), d')) :
    d.files.write p content = .ok d'.files := by
  obtain ⟨r, d₁, hchange, hraise⟩ := bind_eq_ok_iff.mp hrun
  obtain ⟨rfl, rfl⟩ := orRaise_eq_ok_iff.mp hraise
  exact change_eq_ok hchange

theorem renameDir_eq_ok {src dst : List ν} (hrun : sys.renameDir src dst d = (.ok (), d')) :
    d.files.renameDir src dst = .ok d'.files := by
  obtain ⟨r, d₁, hchange, hraise⟩ := bind_eq_ok_iff.mp hrun
  obtain ⟨rfl, rfl⟩ := orRaise_eq_ok_iff.mp hraise
  exact change_eq_ok hchange

omit [DecidableEq ν] in
theorem look_eq_ok {f : FileSystem ν β → Except Errno α} {a : α}
    (hrun : sys.look f d = (.ok a, d')) : f d.files = .ok a ∧ d'.files = d.files := by
  unfold look at hrun
  split at hrun
  · obtain ⟨hlook, rfl⟩ := orRaise_eq_ok_iff.mp hrun
    exact ⟨hlook, rfl⟩
  · exact absurd hrun raise_ne_ok

omit [DecidableEq ν] in
/-- Looking leaves the file system as it is. -/
theorem keeps_look (f : FileSystem ν β → Except Errno α) :
    (sys.look f).Keeps (fun _ => True) Disk.files := by
  intro d _
  refine ⟨trivial, ?_⟩
  unfold look
  split
  · cases f d.files <;> rfl
  · rfl

omit [DecidableEq ν] in
theorem look_files {f : FileSystem ν β → Except Errno α} {r : Except ε α}
    (hrun : sys.look f d = (r, d')) : d'.files = d.files := by
  have hkept : (sys.look f d).2.files = d.files := (keeps_look f d trivial).2
  rwa [hrun] at hkept

theorem rglob_eq_ok {list : Listing ν β} {qs : List (List ν)}
    (hrun : sys.rglob list p d = (.ok qs, d')) :
    (∀ q, q ∈ qs ↔ q ∈ list.below d.files p ∧ sys.Sees d.calls q) ∧ d'.files = d.files := by
  cases hrun
  refine ⟨fun q => ?_, rfl⟩
  rw [List.mem_filter, decide_eq_true_iff]

omit [DecidableEq ν] in
theorem read_eq_ok {content : β} (hrun : sys.read p d = (.ok content, d')) :
    d.files.node p = some (.file content) ∧ d'.files = d.files := by
  obtain ⟨hread, hfiles⟩ := look_eq_ok hrun
  exact ⟨FileSystem.read_eq_ok_iff.mp hread, hfiles⟩

/-- A rename that raises has changed nothing. -/
theorem renameDir_eq_error {src dst : List ν} {e : ε}
    (hrun : sys.renameDir src dst d = (.error e, d')) : d'.files = d.files := by
  rcases bind_eq_error_iff.mp hrun with hchange | ⟨r, d₁, hchange, hraise⟩
  · unfold change at hchange
    split at hchange
    · split at hchange <;> cases hchange
    · cases hchange
  · cases r with
    | ok u => exact absurd hraise pure_ne_error
    | error e' =>
      rw [← (raise_eq_error_iff.mp hraise).2]
      unfold change at hchange
      split at hchange
      · split at hchange <;> cases hchange
        rfl
      · cases hchange
        rfl

/-! ## Making directories -/

/-- There is a directory at the path, and nothing else has changed. -/
structure Made (fs fs' : FileSystem ν β) (p : List ν) : Prop where
  node : fs'.node = fun q => if q <+: p then some .dir else fs.node q
  free : ∀ q, q <+: p → fs.node q = none ∨ fs.node q = some .dir

variable {fs fs₁ fs₂ : FileSystem ν β}

theorem Made.of_mkdir (h : fs.mkdir p = .ok fs₁) : Made fs fs₁ p := by
  obtain ⟨hdir, hfree, hnode⟩ := FileSystem.mkdir_eq_ok_iff.mp h
  have hparents {q : List ν} (hq : q <+: p.dropLast) : fs.node q = some .dir :=
    FileSystem.dir_of_start hdir hq
  refine ⟨funext fun q => ?_, fun q hq => ?_⟩
  · rw [hnode, Function.update_apply]
    simp only [FileSystem.start_iff p q]
    by_cases heq : q = p
    · rw [if_pos heq, if_pos (.inl heq)]
    · rw [if_neg heq]
      split_ifs with hq
      · exact hparents (hq.resolve_left heq)
      · rfl
  · rcases (FileSystem.start_iff p q).mp hq with rfl | hq
    · exact .inl hfree
    · exact .inr (hparents hq)

theorem Made.of_dir (h : fs.node p = some .dir) : Made fs fs p := by
  refine ⟨funext fun q => ?_, fun q hq => .inr (FileSystem.dir_of_start h hq)⟩
  split_ifs with hq
  · exact FileSystem.dir_of_start h hq
  · rfl

/-- A directory is made after its parent. -/
theorem Made.trans (h : Made fs fs₁ p.dropLast) (h' : Made fs₁ fs₂ p) : Made fs fs₂ p := by
  refine ⟨funext fun q => ?_, fun q hq => ?_⟩
  · rw [h'.node, h.node]
    dsimp only
    split_ifs with hq hq'
    · rfl
    · exact absurd ((FileSystem.start_iff p q).mpr (.inr hq')) hq
    · rfl
  · by_cases hq' : q <+: p.dropLast
    · exact h.free q hq'
    · have := h'.free q hq
      simpa only [h.node, if_neg hq'] using this

theorem unlessDir_eq_ok {existOk : Bool} {e : Errno}
    (hrun : sys.unlessDir existOk p e d = (.ok (), d')) :
    Made d.files d'.files p := by
  obtain ⟨b, d₁, hlook, hrun⟩ := bind_eq_ok_iff.mp hrun
  obtain ⟨hdir, hfiles⟩ := look_eq_ok hlook
  cases hdir
  split_ifs at hrun with h
  · obtain ⟨-, rfl⟩ := pure_eq_ok_iff.mp hrun
    rw [hfiles]
    exact .of_dir (FileSystem.isDir_iff.mp (Bool.and_eq_true_iff.mp h).2)
  · exact absurd hrun raise_ne_ok

theorem mkdir_eq_ok {existOk : Bool} (hrun : sys.mkdir existOk p d = (.ok (), d')) :
    Made d.files d'.files p := by
  obtain ⟨r, d₁, htry, hrun⟩ := bind_eq_ok_iff.mp hrun
  split at hrun
  · obtain ⟨-, rfl⟩ := pure_eq_ok_iff.mp hrun
    exact .of_mkdir (change_eq_ok htry)
  · exact absurd hrun raise_ne_ok
  · rw [← (tryMkdir_eq_error htry).1]
    exact unlessDir_eq_ok hrun

/-- **Making a directory with its parents.** -/
theorem mkdirs_eq_ok {existOk : Bool} {depth : ℕ}
    (hrun : sys.mkdirs existOk depth p d = (.ok (), d')) : Made d.files d'.files p := by
  induction depth generalizing existOk p d d' with
  | zero => exact mkdir_eq_ok hrun
  | succ depth ih =>
    obtain ⟨r, d₁, htry, hrun⟩ := bind_eq_ok_iff.mp hrun
    split at hrun
    · obtain ⟨-, rfl⟩ := pure_eq_ok_iff.mp hrun
      exact .of_mkdir (change_eq_ok htry)
    · obtain ⟨_, d₂, hparent, hrun⟩ := bind_eq_ok_iff.mp hrun
      rw [← (tryMkdir_eq_error htry).1]
      exact (ih hparent).trans (mkdir_eq_ok hrun)
    · rw [← (tryMkdir_eq_error htry).1]
      exact unlessDir_eq_ok hrun

/-! ## What is kept outside of a directory -/

/-- There is a directory at the path. -/
def HasDir (t : List ν) (d : Disk ν β) : Prop := d.files.node t = some .dir

/-- The file system without what is at the path. -/
def outside (t : List ν) (d : Disk ν β) : FileSystem ν β := d.files.removeTree t

/-- The program changes nothing outside of the directory. -/
abbrev Inside (t : List ν) (m : Script (Disk ν β) ε α) : Prop :=
  m.Keeps (HasDir t) (outside t)

theorem inside_change {f : FileSystem ν β → Except Errno (FileSystem ν β)}
    {broken : Fault ν β → FileSystem ν β → FileSystem ν β}
    (hf : ∀ fs fs', fs.node t = some .dir → f fs = .ok fs' →
      fs'.node t = some .dir ∧ fs'.removeTree t = fs.removeTree t)
    (hbroken : ∀ fault fs, fs.node t = some .dir → (broken fault fs).node t = some .dir ∧
      (broken fault fs).removeTree t = fs.removeTree t) : Inside t (sys.change f broken) := by
  intro d hd
  unfold change
  split
  · split
    · next hrun => exact hf _ _ hd hrun
    · exact ⟨hd, rfl⟩
  · exact hbroken _ _ hd

theorem inside_orRaise (r : Except Errno α) :
    Inside t (sys.orRaise r : Script (Disk ν β) ε α) := by
  cases r with
  | ok a => exact .pure a
  | error e => exact .raise _

theorem inside_tryMkdir (ht : t <+: p) : Inside t (sys.tryMkdir p) := by
  refine inside_change (fun fs fs' hdir hrun => ?_) fun _ fs hdir => ⟨hdir, rfl⟩
  obtain ⟨-, hfree, hnode⟩ := FileSystem.mkdir_eq_ok_iff.mp hrun
  refine ⟨?_, FileSystem.removeTree_of_update hnode ht⟩
  rw [hnode, Function.update_apply, hdir, ite_self]

theorem write_inside {content : β} (ht : t <+: p) (hdir : fs.node t = some .dir)
    (hrun : fs.write p content = .ok fs₁) :
    fs₁.node t = some .dir ∧ fs₁.removeTree t = fs.removeTree t := by
  obtain ⟨-, hfree, hnode⟩ := FileSystem.write_eq_ok_iff.mp hrun
  refine ⟨?_, FileSystem.removeTree_of_update hnode ht⟩
  have hne : t ≠ p := by
    rintro rfl
    rcases hfree with h | ⟨c, h⟩
    · rw [hdir] at h; cases h
    · rw [hdir] at h; cases h
  rw [hnode, Function.update_of_ne hne, hdir]

theorem inside_write (content : β) (ht : t <+: p) : Inside t (sys.write p content) := by
  refine .bind (inside_change (fun fs fs' hdir hrun => write_inside ht hdir hrun)
    fun fault fs hdir => ?_) fun r => inside_orRaise r
  cases fault with
  | cut c =>
    rw [cutOff]
    cases hrun : fs.write p c with
    | error e => exact ⟨hdir, rfl⟩
    | ok fs' => exact write_inside ht hdir hrun
  | _ => exact ⟨hdir, rfl⟩

/-- A program that leaves the file system as it is changes nothing outside of a directory. -/
theorem inside_of_keeps {m : Script (Disk ν β) ε α} (hm : m.Keeps (fun _ => True) Disk.files) :
    Inside t m := by
  intro d hd
  have hfiles := (hm d trivial).2
  exact ⟨by rw [HasDir, hfiles]; exact hd, by rw [outside, hfiles, outside]⟩

theorem inside_read (p : List ν) : Inside t (sys.read p : Script (Disk ν β) ε β) :=
  inside_of_keeps (keeps_look _)

theorem inside_unlessDir (existOk : Bool) (p : List ν) (e : Errno) :
    Inside t (sys.unlessDir existOk p e : Script (Disk ν β) ε Unit) := by
  refine .bind (inside_of_keeps (keeps_look _)) fun b => ?_
  split_ifs
  · exact .pure _
  · exact .raise _

theorem inside_mkdir (existOk : Bool) (ht : t <+: p) : Inside t (sys.mkdir existOk p) := by
  refine .bind (inside_tryMkdir ht) fun r => ?_
  split
  · exact .pure _
  · exact .raise _
  · exact inside_unlessDir existOk p _

/-- **Parents are made inside of the directory too**, because it is there. -/
theorem inside_mkdirs (existOk : Bool) (depth : ℕ) (ht : t <+: p) :
    Inside t (sys.mkdirs existOk depth p) := by
  induction depth generalizing existOk p with
  | zero => exact inside_mkdir existOk ht
  | succ depth ih =>
    refine (inside_tryMkdir ht).bind_of fun d r d₁ hd hd₁ htry => ?_
    split
    · exact ⟨hd₁, rfl⟩
    · have hparent : t <+: p.dropLast := by
        rcases (FileSystem.start_iff p t).mp ht with rfl | h
        · have hdir := FileSystem.dir_of_start hd (List.dropLast_prefix t)
          rcases (tryMkdir_eq_error htry).2 with h | h
          · cases h
          · exact absurd h (FileSystem.mkdir_ne_notFound hdir)
        · exact h
      exact (Keeps.bind (ih true hparent) fun _ => inside_mkdir existOk ht) d₁ hd₁
    · exact inside_unlessDir existOk p _ d₁ hd₁

/-! ## Runs in a temporary directory -/

/-- The directory that is made is new. -/
theorem makeTemporary_eq_ok {dir names : List ν}
    (hrun : sys.makeTemporary dir names d = (.ok t, d')) :
    (∃ name ∈ names, t = dir ++ [name]) ∧ d.files.node dir = some .dir ∧
      d.files.node t = none ∧ d'.files.node = Function.update d.files.node t (some .dir) := by
  induction names generalizing d with
  | nil => exact absurd hrun raise_ne_ok
  | cons name names ih =>
    obtain ⟨r, d₁, htry, hrun⟩ := bind_eq_ok_iff.mp hrun
    split at hrun
    · obtain ⟨rfl, rfl⟩ := pure_eq_ok_iff.mp hrun
      have hmade := FileSystem.mkdir_eq_ok_iff.mp (change_eq_ok htry)
      rw [List.dropLast_concat] at hmade
      exact ⟨⟨name, List.mem_cons_self, rfl⟩, hmade⟩
    · obtain ⟨⟨name', hname', heq⟩, hrest⟩ := ih hrun
      rw [(tryMkdir_eq_error htry).1] at hrest
      exact ⟨⟨name', List.mem_cons_of_mem name hname', heq⟩, hrest⟩
    · exact absurd hrun raise_ne_ok

theorem makeTemporary_eq_error {dir names : List ν} {e : ε}
    (hrun : sys.makeTemporary dir names d = (.error e, d')) : d'.files = d.files := by
  induction names generalizing d with
  | nil => rw [(raise_eq_error_iff.mp hrun).2]
  | cons name names ih =>
    rcases bind_eq_error_iff.mp hrun with htry | ⟨r, d₁, htry, hrun⟩
    · exact absurd htry tryMkdir_ne_error
    · split at hrun
      · exact absurd hrun pure_ne_error
      · rw [ih hrun, (tryMkdir_eq_error htry).1]
      · rw [← (raise_eq_error_iff.mp hrun).2, (tryMkdir_eq_error htry).1]

/-- What a removal leaves. -/
theorem removeTree_eq_ok (hrun : sys.removeTree p d = (.ok (), d')) :
    d'.files = d.files.removeTree p := by
  obtain ⟨r, d₁, hchange, hraise⟩ := bind_eq_ok_iff.mp hrun
  obtain ⟨rfl, rfl⟩ := orRaise_eq_ok_iff.mp hraise
  have hfiles : Except.ok (d.files.removeTree p) = Except.ok d₁.files :=
    change_eq_ok (f := fun fs => .ok (fs.removeTree p)) hchange
  exact (Except.ok.inj hfiles).symm

/-- A part of what is below a path is not seen when the path is removed, and is not the path. -/
theorem removedPartly_spec (p : List ν) (fault : Fault ν β) (fs : FileSystem ν β) :
    (removedPartly p fault fs).removeTree p = fs.removeTree p ∧
      (removedPartly p fault fs).node p = fs.node p := by
  cases fault with
  | removed paths =>
    rw [removedPartly]
    induction paths generalizing fs with
    | nil => exact ⟨rfl, rfl⟩
    | cons q paths ih =>
      rw [List.foldl_cons]
      obtain ⟨htree, hnode⟩ := ih (if q = [] then fs else fs.removeTree (p ++ q))
      rw [htree, hnode]
      split_ifs with hq
      · exact ⟨rfl, rfl⟩
      · exact ⟨FileSystem.removeTree_append fs p q, FileSystem.node_removeTree_append fs p hq⟩
  | _ => exact ⟨rfl, rfl⟩

/-- A removal that is refused leaves the path there. -/
theorem removeTree_eq_error {e : ε} (hrun : sys.removeTree p d = (.error e, d')) :
    d'.files.removeTree p = d.files.removeTree p ∧ d'.files.node p = d.files.node p := by
  rcases bind_eq_error_iff.mp hrun with hchange | ⟨r, d₁, hchange, hraise⟩
  · unfold change at hchange
    split at hchange <;> cases hchange
  · unfold change at hchange
    split at hchange
    · cases hchange
      exact absurd hraise pure_ne_error
    · next fault _ =>
      cases hchange
      obtain ⟨-, rfl⟩ := raise_eq_error_iff.mp hraise
      exact removedPartly_spec p fault d.files

/-- The directory that was made, under one of the names, is still there; nothing else has
changed. -/
def LeftBehind (dir names : List ν) (fs fs' : FileSystem ν β) : Prop :=
  ∃ name ∈ names, fs.node (dir ++ [name]) = none ∧ fs'.node (dir ++ [name]) = some .dir ∧
    fs'.removeTree (dir ++ [name]) = fs

/-- What is left behind is in the directory that it was made in. -/
theorem LeftBehind.inside {dir names : List ν} (h : LeftBehind dir names fs fs') :
    fs'.node dir = fs.node dir ∧ fs'.removeTree dir = fs.removeTree dir := by
  obtain ⟨name, -, -, -, rfl⟩ := h
  have hbelow : ¬ dir ++ [name] <+: dir := fun h => by simpa using h.length_le
  exact ⟨(if_neg hbelow).symm, (FileSystem.removeTree_append fs' dir [name]).symm⟩

section

variable {dir names : List ν} {body : List ν → Script (Disk ν β) ε α}

/-- **A run in a temporary directory, taken apart.**  The directory is not made; or the program
runs in it, and then it is removed, or removing it is refused and the run raises. -/
theorem withTemporary_cases {r : Except ε α}
    (hrun : sys.withTemporary dir names body d = (r, d')) :
    ((∃ e, r = .error e) ∧ d'.files = d.files) ∨
      ∃ name ∈ names, ∃ d₁ r₁ d₂, d.files.node (dir ++ [name]) = none ∧
        d₁.files.node = Function.update d.files.node (dir ++ [name]) (some .dir) ∧
        body (dir ++ [name]) d₁ = (r₁, d₂) ∧
        ((r = r₁ ∧ d'.files = d₂.files.removeTree (dir ++ [name])) ∨
          ((∃ e, r = .error e) ∧ outside (dir ++ [name]) d' = outside (dir ++ [name]) d₂ ∧
            d'.files.node (dir ++ [name]) = d₂.files.node (dir ++ [name]))) := by
  rcases bind_cases hrun with ⟨e, rfl, hmake⟩ | ⟨t, d₁, hmake, hrun⟩
  · exact .inl ⟨⟨e, rfl⟩, makeTemporary_eq_error hmake⟩
  · obtain ⟨⟨name, hname, rfl⟩, -, hfree, hnode⟩ := makeTemporary_eq_ok hmake
    obtain ⟨r₁, d₂, hone, hend⟩ := andFinally_cases hrun
    refine .inr ⟨name, hname, d₁, r₁, d₂, hfree, hnode, hone, ?_⟩
    rcases hend with ⟨rfl, hclean⟩ | ⟨e, rfl, hclean⟩
    · exact .inl ⟨rfl, removeTree_eq_ok hclean⟩
    · exact .inr ⟨⟨e, rfl⟩, removeTree_eq_error hclean⟩

/-- The file system before the directory was made, when nothing outside of it has changed. -/
theorem outside_of_made {d₁ d₂ : Disk ν β} (hfree : d.files.node t = none)
    (hmade : d₁.files.node = Function.update d.files.node t (some .dir))
    (h : outside t d₂ = outside t d₁) : d₂.files.removeTree t = d.files :=
  h.trans ((FileSystem.removeTree_of_update hmade List.prefix_rfl).trans
    (FileSystem.removeTree_of_none hfree))

/-- What a run in a temporary directory leaves that succeeds. -/
theorem exists_of_ok {a : α} (hrun : sys.withTemporary dir names body d = (.ok a, d')) :
    ∃ name t d₁ d₂, t = dir ++ [name] ∧ d.files.node t = none ∧
      d₁.files.node = Function.update d.files.node t (some .dir) ∧
      body t d₁ = (.ok a, d₂) ∧ d'.files = d₂.files.removeTree t := by
  rcases withTemporary_cases hrun with ⟨⟨e, h⟩, -⟩ | ⟨name, -, d₁, r₁, d₂, hfree, hmade, hone,
    ⟨rfl, hend⟩ | ⟨⟨e, h⟩, -⟩⟩
  · cases h
  · exact ⟨name, _, d₁, d₂, rfl, hfree, hmade, hone, hend⟩
  · cases h

/-- **A run in a temporary directory that changes nothing outside of it** leaves the file system
as it was, unless it raises because the directory could not be removed. -/
theorem keepsOr_withTemporary (hbody : ∀ t, Inside t (body t)) :
    (sys.withTemporary dir names body).KeepsOr Disk.files (LeftBehind dir names) := by
  intro d r d' hrun
  rcases withTemporary_cases hrun with ⟨-, hfiles⟩ | ⟨name, hname, d₁, r₁, d₂, hfree, hmade, hone,
    hend⟩
  · exact .inl hfiles
  · have hdir : HasDir (dir ++ [name]) d₁ := by rw [HasDir, hmade, Function.update_self]
    obtain ⟨hdir₂, hkept⟩ := hbody _ d₁ hdir
    rw [hone] at hdir₂ hkept
    have hwas := outside_of_made hfree hmade hkept
    rcases hend with ⟨-, hend⟩ | ⟨herror, hout, hnode⟩
    · exact .inl (hend.trans hwas)
    · exact .inr ⟨herror, name, hname, hfree, hnode.trans hdir₂, hout.trans hwas⟩

end

end FileCalls
