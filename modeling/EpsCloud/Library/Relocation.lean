import EpsCloud.Library.FileCalls

/-!
# Programs in another directory

A program that works below a directory does the same below another one with the same contents.
The first run may have met faults that it got over; the second one meets none.

* `Follows`: wherever a program succeeds, another one does.
* `Mirrors`: two directories have the same contents.
* `follows_mkdirs`, `follows_write`, `follows_read`: the calls, below two such directories.
-/

namespace Script

variable {σ τ ε α β : Type}

/-- Wherever the first program succeeds the second one does, with the same value, and the states
that they leave are related if those that they start in are. -/
def Follows (R : σ → τ → Prop) (m : Script σ ε α) (m' : Script τ ε α) : Prop :=
  ∀ s s' a s₁, R s s' → m s = (.ok a, s₁) → ∃ s₁', m' s' = (.ok a, s₁') ∧ R s₁ s₁'

namespace Follows

variable {R : σ → τ → Prop}

theorem pure (a : α) : Follows R (pure a : Script σ ε α) (pure a : Script τ ε α) := by
  intro s s' b s₁ hR hrun
  obtain ⟨rfl, rfl⟩ := pure_eq_ok_iff.mp hrun
  exact ⟨s', rfl, hR⟩

theorem raise (e : ε) (m : Script τ ε α) : Follows R (raise e : Script σ ε α) m :=
  fun _ _ _ _ _ hrun => absurd hrun raise_ne_ok

theorem orRaise (e : ε) (o : Option α) :
    Follows R (orRaise e o : Script σ ε α) (Script.orRaise e o : Script τ ε α) := by
  cases o with
  | none => exact .raise e _
  | some a => exact .pure a

theorem bind {m : Script σ ε α} {m' : Script τ ε α} {f : α → Script σ ε β} {f' : α → Script τ ε β}
    (hm : Follows R m m') (hf : ∀ a, Follows R (f a) (f' a)) : Follows R (m >>= f) (m' >>= f') := by
  intro s s' b s₂ hR hrun
  obtain ⟨a, s₁, hone, hrest⟩ := bind_eq_ok_iff.mp hrun
  obtain ⟨s₁', hone', hR₁⟩ := hm s s' a s₁ hR hone
  obtain ⟨s₂', hrest', hR₂⟩ := hf a s₁ s₁' b s₂ hR₁ hrest
  exact ⟨s₂', bind_eq_ok_iff.mpr ⟨a, s₁', hone', hrest'⟩, hR₂⟩

theorem forM {f : α → Script σ ε PUnit} {f' : α → Script τ ε PUnit} {l : List α}
    (hf : ∀ a ∈ l, Follows R (f a) (f' a)) : Follows R (l.forM f) (l.forM f') := by
  induction l with
  | nil => exact .pure _
  | cons a l ih =>
    exact .bind (hf a List.mem_cons_self) fun _ => ih fun b hb => hf b (List.mem_cons_of_mem a hb)

end Follows

end Script

namespace FileSystem

variable {ν β : Type} [DecidableEq ν] {fs : FileSystem ν β} {p : List ν}

/-- On the way to the path there are directories, and then nothing. -/
def Open (fs : FileSystem ν β) (p : List ν) : Prop :=
  ∀ q, q <+: p → fs.node q = none ∨ fs.node q = some .dir

omit [DecidableEq ν] in
theorem Open.dropLast (h : fs.Open p) : fs.Open p.dropLast :=
  fun q hq => h q (hq.trans (List.dropLast_prefix p))

omit [DecidableEq ν] in
/-- Where nothing is on the way, it is not the way that is wrong. -/
theorem missing_of_open (h : fs.Open p) : fs.missing p = .notFound := by
  refine if_neg fun hany => ?_
  obtain ⟨q, hq, hnode⟩ := List.any_eq_true.mp hany
  obtain ⟨hsome, hdir⟩ := Bool.and_eq_true_iff.mp hnode
  rcases h q ((List.mem_inits _ _).mp hq) with hnone | hdir'
  · rw [hnone] at hsome
    cases hsome
  · rw [isDir_iff.mpr hdir'] at hdir
    cases hdir

/-- Making a directory goes through, or the parent is missing, or the directory is there. -/
theorem mkdir_of_open (h : fs.Open p) :
    (∃ fs', fs.mkdir p = .ok fs') ∨
      (fs.mkdir p = .error .notFound ∧ fs.node p = none ∧ fs.node p.dropLast = none) ∨
        (fs.mkdir p = .error .exists ∧ fs.node p = some .dir) := by
  unfold mkdir
  rcases h p.dropLast (List.dropLast_prefix p) with hparent | hparent
  · have hdir : ¬ fs.isDir p.dropLast := by
      rw [isDir_iff, hparent]
      exact (Option.some_ne_none _).symm
    have hnone : fs.node p = none := by
      rcases h p List.prefix_rfl with hnone | hdir'
      · exact hnone
      · rw [dir_of_start hdir' (List.dropLast_prefix p)] at hparent
        cases hparent
    rw [dif_neg hdir, missing_of_open h]
    exact .inr (.inl ⟨rfl, hnone, hparent⟩)
  · rw [dif_pos (isDir_iff.mpr hparent)]
    rcases h p List.prefix_rfl with hnone | hdir
    · rw [dif_pos hnone]
      exact .inl ⟨_, rfl⟩
    · rw [dif_neg (by rw [hdir]; exact Option.some_ne_none _)]
      exact .inr (.inr ⟨rfl, hdir⟩)

end FileSystem

namespace FileCalls

open Script

variable {ν β ε : Type} [DecidableEq ν] {sys sys' : FileCalls ν β ε} {p t t' q : List ν}
  {d d' d₁ : Disk ν β}

/-! ## Calls without faults -/

/-- No call meets a fault. -/
def Faultless (sys : FileCalls ν β ε) : Prop := ∀ n, sys.fault n = none

omit [DecidableEq ν] in
theorem change_of_ok (hsys : sys.Faultless) {f : FileSystem ν β → Except Errno (FileSystem ν β)}
    {broken : Fault ν β → FileSystem ν β → FileSystem ν β} {fs : FileSystem ν β}
    (h : f d.files = .ok fs) : sys.change f broken d = (.ok (.ok ()), ⟨fs, d.calls + 1⟩) := by
  unfold change
  rw [hsys d.calls]
  dsimp only
  rw [h]

omit [DecidableEq ν] in
theorem change_of_error (hsys : sys.Faultless) {f : FileSystem ν β → Except Errno (FileSystem ν β)}
    {broken : Fault ν β → FileSystem ν β → FileSystem ν β} {e : Errno} (h : f d.files = .error e) :
    sys.change f broken d = (.ok (.error e), ⟨d.files, d.calls + 1⟩) := by
  unfold change
  rw [hsys d.calls]
  dsimp only
  rw [h]

theorem write_of_ok (hsys : sys.Faultless) {content : β} {fs : FileSystem ν β}
    (h : d.files.write p content = .ok fs) :
    sys.write p content d = (.ok (), ⟨fs, d.calls + 1⟩) :=
  bind_eq_ok_iff.mpr ⟨.ok (), _, change_of_ok hsys h, rfl⟩

theorem renameDir_of_ok (hsys : sys.Faultless) {src dst : List ν} {fs : FileSystem ν β}
    (h : d.files.renameDir src dst = .ok fs) :
    sys.renameDir src dst d = (.ok (), ⟨fs, d.calls + 1⟩) :=
  bind_eq_ok_iff.mpr ⟨.ok (), _, change_of_ok hsys h, rfl⟩

omit [DecidableEq ν] in
theorem look_of_ok (hsys : sys.Faultless) {α : Type} {f : FileSystem ν β → Except Errno α} {a : α}
    (h : f d.files = .ok a) : sys.look f d = (.ok a, ⟨d.files, d.calls + 1⟩) := by
  unfold look
  rw [hsys d.calls]
  dsimp only
  rw [h]
  rfl

omit [DecidableEq ν] in
theorem isDir_of_dir (hsys : sys.Faultless) (h : d.files.node p = some .dir) :
    sys.isDir p d = (.ok true, ⟨d.files, d.calls + 1⟩) :=
  look_of_ok hsys (congrArg Except.ok (FileSystem.isDir_iff.mpr h))

/-- A listing passes over nothing. -/
theorem rglob_of_faultless (hsys : sys.Faultless) (list : Listing ν β) (p : List ν)
    (d : Disk ν β) : sys.rglob list p d = (.ok (list.below d.files p), ⟨d.files, d.calls + 1⟩) := by
  have hsees (q : List ν) : sys.Sees d.calls q := by
    intro fault hfault
    rw [hsys d.calls] at hfault
    cases hfault
  rw [rglob, List.filter_eq_self.mpr fun q _ => decide_eq_true (hsees q)]

/-- A directory is made, or is there and may be. -/
theorem mkdir_of_open (hsys : sys.Faultless) {existOk : Bool} (hopen : d.files.Open p)
    (hparent : d.files.node p.dropLast = some .dir)
    (hnew : existOk = true ∨ d.files.node p = none) :
    ∃ d', sys.mkdir existOk p d = (.ok (), d') := by
  rcases FileSystem.mkdir_of_open hopen with ⟨fs, hmk⟩ | ⟨-, -, hnone⟩ | ⟨hmk, hdir⟩
  · exact ⟨_, bind_eq_ok_iff.mpr ⟨.ok (), _, change_of_ok hsys hmk, rfl⟩⟩
  · rw [hparent] at hnone
    cases hnone
  · obtain rfl : existOk = true := hnew.resolve_right (by rw [hdir]; exact Option.some_ne_none _)
    exact ⟨_, bind_eq_ok_iff.mpr ⟨.error .exists, _, change_of_error hsys hmk,
      bind_eq_ok_iff.mpr ⟨true, _, isDir_of_dir hsys hdir, rfl⟩⟩⟩

/-- **A directory is made with its parents**, below one that is there. -/
theorem mkdirs_of_open (hsys : sys.Faultless) {existOk : Bool} {depth : ℕ} (hdir : HasDir t d)
    (hdepth : q.length ≤ depth) (hopen : d.files.Open (t ++ q))
    (hnew : existOk = true ∨ d.files.node (t ++ q) = none) :
    ∃ d', sys.mkdirs existOk depth (t ++ q) d = (.ok (), d') := by
  induction depth generalizing existOk q d with
  | zero =>
    obtain rfl := List.length_eq_zero_iff.mp (Nat.le_zero.mp hdepth)
    rw [List.append_nil] at hopen hnew ⊢
    exact mkdir_of_open hsys hopen (FileSystem.dir_of_start hdir (List.dropLast_prefix t)) hnew
  | succ depth ih =>
    rcases FileSystem.mkdir_of_open hopen with ⟨fs, hmk⟩ | ⟨hmk, hnone, hparent⟩ | ⟨hmk, hthere⟩
    · exact ⟨_, bind_eq_ok_iff.mpr ⟨.ok (), _, change_of_ok hsys hmk, rfl⟩⟩
    · -- the parents are made first, and then the directory
      have hq : q ≠ [] := by
        rintro rfl
        rw [List.append_nil, hdir] at hnone
        cases hnone
      have hdrop : (t ++ q).dropLast = t ++ q.dropLast := List.dropLast_append_of_ne_nil hq
      have hlength : q.dropLast.length ≤ depth := by
        rw [List.length_dropLast]
        omega
      have hparents : ∃ d₂, sys.mkdirs true depth (t ++ q.dropLast) ⟨d.files, d.calls + 1⟩ =
          (.ok (), d₂) :=
        ih hdir hlength (hdrop ▸ hopen.dropLast) (.inl rfl)
      obtain ⟨d₂, hparents⟩ := hparents
      rw [← hdrop] at hparents
      have hmade := mkdirs_eq_ok hparents
      have hnot : ¬ t ++ q <+: (t ++ q).dropLast := fun h => by
        have hlen := h.length_le
        have hpos := List.length_pos_iff.mpr hq
        rw [List.length_dropLast, List.length_append] at hlen
        omega
      have hnone₂ : d₂.files.node (t ++ q) = none := by
        rw [hmade.node]
        exact (if_neg hnot).trans hnone
      have hopen₂ : d₂.files.Open (t ++ q) := by
        intro r hr
        rw [hmade.node]
        dsimp only
        split_ifs
        · exact .inr rfl
        · exact hopen r hr
      have hdir₂ : d₂.files.node (t ++ q).dropLast = some .dir := by
        rw [hmade.node]
        exact if_pos List.prefix_rfl
      obtain ⟨d₃, hlast⟩ := mkdir_of_open hsys hopen₂ hdir₂ (.inr hnone₂)
      exact ⟨d₃, bind_eq_ok_iff.mpr ⟨.error .notFound, _, change_of_error hsys hmk,
        bind_eq_ok_iff.mpr ⟨(), d₂, hparents, hlast⟩⟩⟩
    · obtain rfl : existOk = true :=
        hnew.resolve_right (by rw [hthere]; exact Option.some_ne_none _)
      exact ⟨_, bind_eq_ok_iff.mpr ⟨.error .exists, _, change_of_error hsys hmk,
        bind_eq_ok_iff.mpr ⟨true, _, isDir_of_dir hsys hthere, rfl⟩⟩⟩

/-- A directory that must be new was not there. -/
theorem mkdir_false_free (hrun : sys.mkdir false p d = (.ok (), d')) : d.files.node p = none := by
  obtain ⟨r, d₁, htry, hrun⟩ := bind_eq_ok_iff.mp hrun
  split at hrun
  · exact (FileSystem.mkdir_eq_ok_iff.mp (change_eq_ok htry)).2.1
  · exact absurd hrun raise_ne_ok
  · obtain ⟨b, d₂, -, hrun⟩ := bind_eq_ok_iff.mp hrun
    exact absurd hrun raise_ne_ok

theorem mkdirs_false_free {depth : ℕ} (hrun : sys.mkdirs false depth p d = (.ok (), d')) :
    d.files.node p = none := by
  cases depth with
  | zero => exact mkdir_false_free hrun
  | succ depth =>
    obtain ⟨r, d₁, htry, hrun⟩ := bind_eq_ok_iff.mp hrun
    split at hrun
    · exact (FileSystem.mkdir_eq_ok_iff.mp (change_eq_ok htry)).2.1
    · obtain ⟨_, d₂, hparents, hlast⟩ := bind_eq_ok_iff.mp hrun
      have hnone := mkdir_false_free hlast
      rw [(mkdirs_eq_ok hparents).node] at hnone
      dsimp only at hnone
      split_ifs at hnone
      rwa [(tryMkdir_eq_error htry).1] at hnone
    · obtain ⟨b, d₂, -, hrun⟩ := bind_eq_ok_iff.mp hrun
      exact absurd hrun raise_ne_ok

/-! ## Two directories -/

/-- A temporary directory is made when one of the names is free. -/
theorem makeTemporary_of_free (hsys : sys.Faultless) {dir names : List ν} (hdir : HasDir dir d)
    (hfree : ∃ name ∈ names, d.files.node (dir ++ [name]) = none) :
    ∃ t d', sys.makeTemporary dir names d = (.ok t, d') := by
  induction names generalizing d with
  | nil =>
    obtain ⟨name, hname, -⟩ := hfree
    cases hname
  | cons name names ih =>
    have hparent : d.files.isDir (dir ++ [name]).dropLast := by
      rw [List.dropLast_concat]
      exact FileSystem.isDir_iff.mpr hdir
    by_cases hnone : d.files.node (dir ++ [name]) = none
    · have hmk : ∃ fs, d.files.mkdir (dir ++ [name]) = .ok fs :=
        ⟨_, (dif_pos hparent).trans (dif_pos hnone)⟩
      obtain ⟨fs, hmk⟩ := hmk
      exact ⟨_, _, bind_eq_ok_iff.mpr ⟨.ok (), _, change_of_ok hsys hmk, rfl⟩⟩
    · have hmk : d.files.mkdir (dir ++ [name]) = .error .exists :=
        (dif_pos hparent).trans (dif_neg hnone)
      have hrest : ∃ other ∈ names, d.files.node (dir ++ [other]) = none := by
        obtain ⟨other, hother, hnode⟩ := hfree
        rcases List.mem_cons.mp hother with rfl | hother
        · exact absurd hnode hnone
        · exact ⟨other, hother, hnode⟩
      have hnext : ∃ t d', sys.makeTemporary dir names ⟨d.files, d.calls + 1⟩ = (.ok t, d') :=
        ih hdir hrest
      obtain ⟨t, d', hnext⟩ := hnext
      exact ⟨t, d', bind_eq_ok_iff.mpr ⟨.error .exists, _, change_of_error hsys hmk, hnext⟩⟩

/-- A program that succeeds in the directory that is made succeeds in a temporary directory. -/
theorem withTemporary_of_ok (hsys : sys.Faultless) {α : Type} {dir names : List ν}
    {body : List ν → Script (Disk ν β) ε α} {a : α} {d₂ : Disk ν β}
    (hmake : sys.makeTemporary dir names d = (.ok t, d₁)) (hbody : body t d₁ = (.ok a, d₂)) :
    ∃ d', sys.withTemporary dir names body d = (.ok a, d') :=
  ⟨⟨d₂.files.removeTree t, d₂.calls + 1⟩, bind_eq_ok_iff.mpr ⟨t, d₁, hmake, by
    have hclean : sys.removeTree t d₂ = (.ok (), ⟨d₂.files.removeTree t, d₂.calls + 1⟩) :=
      bind_eq_ok_iff.mpr ⟨.ok (), _, change_of_ok hsys rfl, rfl⟩
    rw [andFinally, hbody, hclean]⟩⟩

/-- There are two directories with the same contents. -/
structure Mirrors (t t' : List ν) (d d' : Disk ν β) : Prop where
  left : HasDir t d
  right : HasDir t' d'
  node : ∀ q, d.files.node (t ++ q) = d'.files.node (t' ++ q)

omit [DecidableEq ν] in
/-- What is on the way below one of the directories is on the way below the other one. -/
theorem Mirrors.openBelow (h : Mirrors t t' d d') (hopen : d.files.Open (t ++ q)) :
    d'.files.Open (t' ++ q) := by
  intro r hr
  rcases List.prefix_or_prefix_of_prefix hr (List.prefix_append t' q) with hstart | ⟨r', rfl⟩
  · exact .inr (FileSystem.dir_of_start h.right hstart)
  · rw [← h.node]
    exact hopen _ ((List.prefix_append_right_inj t).mpr ((List.prefix_append_right_inj t').mp hr))

/-- Two changes that do the same below the directories. -/
theorem Mirrors.of_made (h : Mirrors t t' d d₁) {d₂ d₂' : Disk ν β}
    (hmade : Made d.files d₂.files (t ++ q)) (hmade' : Made d₁.files d₂'.files (t' ++ q)) :
    Mirrors t t' d₂ d₂' := by
  refine ⟨?_, ?_, fun r => ?_⟩
  · rw [HasDir, hmade.node]
    exact if_pos (List.prefix_append t q)
  · rw [HasDir, hmade'.node]
    exact if_pos (List.prefix_append t' q)
  · rw [hmade.node, hmade'.node]
    simp only [List.prefix_append_right_inj, h.node r]

theorem follows_mkdirs (hsys : sys'.Faultless) {existOk : Bool} {depth depth' : ℕ}
    (hdepth : q.length ≤ depth') :
    Follows (Mirrors t t') (sys.mkdirs existOk depth (t ++ q))
      (sys'.mkdirs existOk depth' (t' ++ q)) := by
  intro d d' u d₁ hR hrun
  have hmade := mkdirs_eq_ok hrun
  have hnew : existOk = true ∨ d'.files.node (t' ++ q) = none := by
    cases existOk with
    | true => exact .inl rfl
    | false => exact .inr (hR.node q ▸ mkdirs_false_free hrun)
  obtain ⟨d₁', hrun'⟩ := mkdirs_of_open hsys hR.right hdepth (hR.openBelow hmade.free) hnew
  exact ⟨d₁', hrun', hR.of_made hmade (mkdirs_eq_ok hrun')⟩

theorem follows_write (hsys : sys'.Faultless) (content : β) :
    Follows (Mirrors t t') (sys.write (t ++ q) content) (sys'.write (t' ++ q) content) := by
  intro d d' u d₁ hR hrun
  obtain ⟨hdir, hfree, hnode⟩ := FileSystem.write_eq_ok_iff.mp (write_eq_ok hrun)
  have hq : q ≠ [] := by
    rintro rfl
    rw [List.append_nil] at hfree
    rcases hfree with h | ⟨c, h⟩
    · rw [hR.left] at h; cases h
    · rw [hR.left] at h; cases h
  rw [List.dropLast_append_of_ne_nil hq, hR.node, ← List.dropLast_append_of_ne_nil hq] at hdir
  rw [hR.node] at hfree
  cases hwrite : d'.files.write (t' ++ q) content with
  | error e =>
    -- the write is refused for none of the reasons that there are
    exfalso
    unfold FileSystem.write at hwrite
    have hnot : ¬ d'.files.isDir (t' ++ q) := by
      rw [FileSystem.isDir_iff]
      rcases hfree with h | ⟨c, h⟩ <;> rw [h] <;> simp
    rw [dif_neg hnot, dif_pos (FileSystem.isDir_iff.mpr hdir)] at hwrite
    rcases hfree with h | ⟨c, h⟩ <;> rw [h] at hwrite <;> cases hwrite
  | ok fs =>
    obtain ⟨-, -, hnode'⟩ := FileSystem.write_eq_ok_iff.mp hwrite
    refine ⟨_, write_of_ok hsys hwrite, ?_, ?_, fun r => ?_⟩
    · rw [HasDir, hnode, Function.update_of_ne (by simpa using hq.symm)]
      exact hR.left
    · rw [HasDir, hnode', Function.update_of_ne (by simpa using hq.symm)]
      exact hR.right
    · rw [hnode, hnode', Function.update_apply, Function.update_apply]
      simp only [List.append_cancel_left_eq, hR.node r]

omit [DecidableEq ν] in
theorem follows_read (hsys : sys'.Faultless) :
    Follows (Mirrors t t') (sys.read (t ++ q)) (sys'.read (t' ++ q)) := by
  intro d d' content d₁ hR hrun
  obtain ⟨hnode, hsame⟩ := read_eq_ok hrun
  rw [hR.node] at hnode
  refine ⟨_, look_of_ok hsys (FileSystem.read_eq_ok_iff.mpr hnode), ?_, hR.right, fun r => ?_⟩
  · rw [HasDir, hsame]
    exact hR.left
  · rw [hsame]
    exact hR.node r

end FileCalls
