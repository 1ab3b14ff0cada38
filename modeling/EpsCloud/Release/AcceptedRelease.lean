import EpsCloud.Library.Relocation
import EpsCloud.Release.VerifiedRelease

/-!
# A published snapshot is accepted

What CI published for a successful run, and an operator downloaded, `verify_release` accepts as
long as master has not moved on.  It builds the snapshot again in another directory: every call
of the first build that went through goes through there too, so it makes the same snapshot.

* `follows_buildSnapshot`: a build follows another one.
* `prepareSnapshot_again`: what was built once can be built elsewhere.
* `verifyRelease_accepts`: the published snapshot is accepted.
-/

namespace EpsCloud

open Script FileCalls

section

variable {κ α : Type} [DecidableEq κ] {sys sys' : FileCalls Text Bytes Raised} {yaml : Yaml κ α}
  {records : Text → Option (Doc Unit String Atom)}
  {repository commit runId runAttempt web worker : Text}

/-! ## Building again -/

theorem follows_extractMember (hsys : sys'.Faultless) {t t' q : List Text} (hq : q ≠ [])
    (m : Option (Member Bytes)) :
    Follows (Mirrors t t') (extractMember sys (t ++ q) m) (extractMember sys' (t' ++ q) m) := by
  cases m with
  | none => exact .raise _ _
  | some member =>
    unfold extractMember
    dsimp only
    cases member.kind with
    | directory => exact .pure _
    | other => exact .raise _ _
    | regular =>
      refine .bind (.orRaise _ _) fun path => .bind (.orRaise _ _) fun content => ?_
      have hne : q ++ path ≠ [] := List.append_ne_nil_of_left_ne_nil hq path
      have hdrop (u : List Text) : (u ++ q ++ path).dropLast = u ++ (q ++ path).dropLast := by
        rw [List.append_assoc, List.dropLast_append_of_ne_nil hne]
      rw [hdrop, hdrop, List.append_assoc, List.append_assoc]
      refine .bind (follows_mkdirs hsys ?_) fun _ => .bind (.orRaise _ _) fun bytes =>
        follows_write hsys bytes
      rw [List.length_append]
      exact Nat.le_add_left _ _

/-- **A build follows another one**, in a directory with the same contents. -/
theorem follows_buildSnapshot (hsys : sys'.Faultless) {t t' : List Text}
    {archive : List (Option (Member Bytes))} :
    Follows (Mirrors t t')
      (buildSnapshot sys yaml repository commit runId runAttempt web worker archive t)
      (buildSnapshot sys' yaml repository commit runId runAttempt web worker archive t') := by
  unfold buildSnapshot
  simp only [List.append_assoc, List.singleton_append]
  refine .bind (follows_mkdirs hsys ?_) fun _ =>
    .bind (.forM fun m _ => follows_extractMember hsys (List.cons_ne_nil _ _) m) fun _ =>
      .bind (follows_read hsys) fun content => .bind (.orRaise _ _) fun values =>
        .bind (.orRaise _ _) fun dumped => .bind (follows_write hsys _) fun _ =>
          follows_write hsys _
  rw [List.length_append]
  exact Nat.le_add_left _ _

/-- The directories that two builds start in. -/
theorem mirrors_of_made {t t' : List Text} {d d₁ e e₁ : Disk Text Bytes}
    (hfree : d.files.node t = none)
    (hmade : d₁.files.node = Function.update d.files.node t (some .dir))
    (hfree' : e.files.node t' = none)
    (hmade' : e₁.files.node = Function.update e.files.node t' (some .dir)) :
    Mirrors t t' d₁ e₁ := by
  refine ⟨by rw [HasDir, hmade, Function.update_self], by rw [HasDir, hmade', Function.update_self],
    fun q => ?_⟩
  rcases eq_or_ne q [] with rfl | hq
  · rw [List.append_nil, List.append_nil, hmade, hmade', Function.update_self,
      Function.update_self]
  · rw [hmade, hmade', Function.update_of_ne (by simpa using hq),
      Function.update_of_ne (by simpa using hq), FileSystem.node_eq_none_of_append hfree,
      FileSystem.node_eq_none_of_append hfree']

/-- The record that a reference comes from gives it again. -/
theorem orRaise_of_isBound {image ref : Text} (hcommit : isHex 40 commit)
    (h : IsBound records image repository commit runId runAttempt ref) (e : Disk Text Bytes) :
    (orRaise .elsewhere ((records image).bind fun record =>
      validateRecord record repository image commit runId runAttempt) :
        Script (Disk Text Bytes) Raised Text) e = (.ok ref, e) := by
  obtain ⟨⟨record, hrecord, h₁, h₂, h₃, h₄, h₅⟩, hform⟩ := h
  have hvalid := (validateRecord_eq_some_iff (notMem_of_isHex hcommit (by decide))).mpr
    ⟨h₁, h₂, h₃, h₄, h₅, hform⟩
  rw [hrecord, Option.bind_some, hvalid]
  rfl

/-- A build that goes through in the private directory `t'` is published where nothing is. -/
theorem publishSnapshot_again (hsys : sys'.Faultless) {archive : List (Option (Member Bytes))}
    {t t' output output' : List Text} {d₁ d₂ e e₁ : Disk Text Bytes}
    (hmirrors : Mirrors t t' d₁ e₁)
    (hrun : publishSnapshot sys yaml repository commit runId runAttempt web worker archive output t
      d₁ = (.ok (), d₂))
    (hmade : e₁.files.node = Function.update e.files.node t' (some .dir))
    (hlen : t'.length = output'.length) (hne : t' ≠ output')
    (hparent : e.files.node output'.dropLast = some .dir) (hfree : e.files.node output' = none)
    (hout : ¬ t' <+: output'.dropLast) :
    ∃ e₂, publishSnapshot sys' yaml repository commit runId runAttempt web worker archive output'
      t' e₁ = (.ok (), e₂) := by
  obtain ⟨_, d₃, hbuild, hrename⟩ := bind_eq_ok_iff.mp hrun
  obtain ⟨hstaged, -, -, -, -⟩ := FileSystem.renameDir_eq_ok_iff.mp (renameDir_eq_ok hrename)
  obtain ⟨e₃, hbuild', hmirrors₃⟩ := follows_buildSnapshot hsys d₁ e₁ () d₃ hmirrors hbuild
  have hinside := buildSnapshot_outside hmirrors.right hbuild'
  have hsame {p : List Text} (hp : ¬ t' <+: p) : e₃.files.node p = e.files.node p := by
    rw [node_eq_of_outside hinside.2 hp, hmade, Function.update_of_ne]
    rintro rfl
    exact hp List.prefix_rfl
  have hapart : ¬ t' <+: output' := fun h => hne (h.eq_of_length hlen)
  have hlonger : ¬ t' ++ [snapshotName] <+: output' := fun h => by
    have hle := h.length_le
    rw [List.length_append, List.length_singleton, hlen] at hle
    omega
  have hdir : e₃.files.isDir output'.dropLast :=
    FileSystem.isDir_iff.mpr ((hsame hout).trans hparent)
  have hstaged' : e₃.files.isDir (t' ++ [snapshotName]) := by
    rw [FileSystem.isDir_iff, ← hmirrors₃.node]
    exact hstaged
  have hrename' : e₃.files.renameDir (t' ++ [snapshotName]) output' =
      .ok (e₃.files.move (t' ++ [snapshotName]) output' hlonger hdir) := by
    unfold FileSystem.renameDir
    rw [if_pos hstaged', dif_neg hlonger, dif_pos hdir, if_pos ((hsame hapart).trans hfree)]
  exact ⟨_, bind_eq_ok_iff.mpr ⟨(), e₃, hbuild', renameDir_of_ok hsys hrename'⟩⟩

/-- **What was built once can be built elsewhere**, if the name of the output is free there and
is not one that `tempfile` tries. -/
theorem prepareSnapshot_again (hsys : sys'.Faultless) {parent parent' : List Text}
    {name name' : Text} {archive : Option (List (Option (Member Bytes)))}
    {candidates candidates' : List Text} {d d' e : Disk Text Bytes}
    (hrun : prepareSnapshot sys yaml records parent name repository commit runId runAttempt archive
      candidates d = (.ok (), d'))
    (hdir : e.files.node parent' = some .dir) (hfree : e.files.node (parent' ++ [name']) = none)
    (hname : ¬ "eps-release-".toList <+: name')
    (hcandidates : ∃ c ∈ candidates',
      e.files.node (parent' ++ ["eps-release-".toList ++ c]) = none) :
    ∃ e', prepareSnapshot sys' yaml records parent' name' repository commit runId runAttempt archive
      candidates' e = (.ok (), e') := by
  rcases prepareSnapshot_cases hrun with ⟨⟨_, h⟩, -⟩ | ⟨web, worker, members, d₁, hcommit, hweb,
    hworker, harchive, -, hrun⟩
  · cases h
  obtain ⟨_, t, d₂, d₃, -, hfree₁, hmade₁, hone, -⟩ := exists_of_ok hrun
  -- the second run makes its private directory
  obtain ⟨t', e₂, hmake⟩ : ∃ t' e₂, sys'.makeTemporary parent'
      (candidates'.map ("eps-release-".toList ++ ·)) ⟨e.files, e.calls + 1⟩ = (.ok t', e₂) := by
    refine makeTemporary_of_free hsys hdir ?_
    obtain ⟨c, hc, hnode⟩ := hcandidates
    exact ⟨_, List.mem_map_of_mem hc, hnode⟩
  obtain ⟨⟨made, hmem, rfl⟩, -, hfree₂, hmade₂⟩ := makeTemporary_eq_ok hmake
  have hne : parent' ++ [made] ≠ parent' ++ [name'] := by
    intro h
    obtain ⟨c, -, rfl⟩ := List.mem_map.mp hmem
    obtain rfl := List.singleton_inj.mp (List.append_cancel_left h)
    exact hname (List.prefix_append _ c)
  have hbelow : ¬ parent' ++ [made] <+: (parent' ++ [name']).dropLast := fun h => by
    have hle := h.length_le
    rw [List.dropLast_concat, List.length_append, List.length_singleton] at hle
    omega
  have hpublished : ∃ e₃, publishSnapshot sys' yaml repository commit runId runAttempt web worker
      members (parent' ++ [name']) (parent' ++ [made]) e₂ = (.ok (), e₃) :=
    publishSnapshot_again hsys (mirrors_of_made hfree₁ hmade₁ hfree₂ hmade₂) hone hmade₂
      (by simp) hne (by rwa [List.dropLast_concat]) hfree hbelow
  obtain ⟨e₃, hpublish⟩ := hpublished
  obtain ⟨e', hend⟩ := withTemporary_of_ok hsys hmake hpublish
  refine ⟨e', bind_eq_ok_iff.mpr ⟨(), e, check_eq_ok_iff.mpr ⟨hcommit, rfl⟩,
    bind_eq_ok_iff.mpr ⟨false, ⟨e.files, e.calls + 1⟩, ?_, bind_eq_ok_iff.mpr
      ⟨(), _, check_eq_ok_iff.mpr ⟨rfl, rfl⟩, bind_eq_ok_iff.mpr
        ⟨web, _, orRaise_of_isBound hcommit hweb _, bind_eq_ok_iff.mpr
          ⟨worker, _, orRaise_of_isBound hcommit hworker _, bind_eq_ok_iff.mpr
            ⟨members, _, Script.orRaise_eq_ok_iff.mpr ⟨harchive, rfl⟩, hend⟩⟩⟩⟩⟩⟩⟩
  exact look_of_ok hsys (by simp only [FileSystem.leadsTo, hfree])

/-! ## The same snapshot -/

theorem IsBound.unique {image ref ref' : Text}
    (h : IsBound records image repository commit runId runAttempt ref)
    (h' : IsBound records image repository commit runId runAttempt ref') : ref = ref' := by
  obtain ⟨⟨record, hrecord, -, -, -, -, href⟩, -⟩ := h
  obtain ⟨⟨record', hrecord', -, -, -, -, href'⟩, -⟩ := h'
  obtain rfl := Option.some.inj (hrecord.symm.trans hrecord')
  rw [href] at href'
  cases href'
  rfl

/-- A snapshot is determined by what it is made of. -/
theorem Release.unique {archive : Option (List (Option (Member Bytes)))}
    {web' worker' dumped dumped' : Text} {files files' : List (List Text × Bytes)}
    (h : Release yaml records repository commit runId runAttempt archive web worker files dumped)
    (h' : Release yaml records repository commit runId runAttempt archive web' worker' files'
      dumped') : web = web' ∧ worker = worker' ∧ files = files' ∧ dumped = dumped' := by
  obtain rfl := h.web.unique h'.web
  obtain rfl := h.worker.unique h'.worker
  obtain ⟨members, harchive, rfl⟩ := h.archived
  obtain ⟨members', harchive', rfl⟩ := h'.archived
  obtain rfl := Option.some.inj (harchive.symm.trans harchive')
  obtain ⟨content, values, hcontent, hload, hdump⟩ := h.complete.values
  obtain ⟨content', values', hcontent', hload', hdump'⟩ := h'.complete.values
  obtain rfl := Option.some.inj (hcontent.symm.trans hcontent')
  obtain rfl := Option.some.inj (hload.symm.trans hload')
  exact ⟨rfl, rfl, rfl, Option.some.inj (hdump.symm.trans hdump')⟩

/-- A snapshot has no links. -/
theorem snapshotNode_ne_link {files : List (List Text × Bytes)} {values release : Bytes}
    (q target : List Text) : snapshotNode files values release q ≠ some (.link target) := by
  have hchart (q : List Text) : chartNode files q ≠ some (.link target) := by
    unfold chartNode
    split_ifs
    · simp
    · split <;> simp
    · split <;> simp
  cases q with
  | nil => simp [snapshotNode]
  | cons a q =>
    rw [snapshotNode]
    split_ifs
    · simp
    · simp
    · simp
    · exact hchart q
    · simp

/-- A loop that meets no link gives the files of the listing. -/
theorem filesOf_of_noLink (hsys : sys.Faultless) {root : List Text} {paths : List (List Text)}
    {d : Disk Text Bytes} (hlinks : ∀ q target, d.files.node (root ++ q) ≠ some (.link target)) :
    ∃ d', filesOf sys root paths d = (.ok (listed d.files root paths), d') ∧
      d'.files = d.files := by
  induction paths generalizing d with
  | nil => exact ⟨d, rfl, rfl⟩
  | cons path paths ih =>
    have hlstat : sys.lstat (root ++ path) d =
        (.ok (d.files.node (root ++ path)), ⟨d.files, d.calls + 1⟩) := look_of_ok hsys rfl
    obtain ⟨d₁, hrest, hsame⟩ : ∃ d₁, filesOf sys root paths ⟨d.files, d.calls + 1⟩ =
        (.ok (listed d.files root paths), d₁) ∧ d₁.files = d.files :=
      ih (d := ⟨d.files, d.calls + 1⟩) hlinks
    have hpassed (hnone : contentAt d.files root path = none) : ∃ d',
        filesOf sys root paths ⟨d.files, d.calls + 1⟩ =
          (.ok (listed d.files root (path :: paths)), d') ∧ d'.files = d.files := by
      rw [listed_cons_of_none hnone]
      exact ⟨d₁, hrest, hsame⟩
    rcases hat : d.files.node (root ++ path) with _ | _ | content | target
    · obtain ⟨d', hrun, hfiles⟩ := hpassed (by rw [contentAt, hat])
      rw [hat] at hlstat
      exact ⟨d', bind_eq_ok_iff.mpr ⟨_, _, hlstat, hrun⟩, hfiles⟩
    · obtain ⟨d', hrun, hfiles⟩ := hpassed (by rw [contentAt, hat])
      rw [hat] at hlstat
      exact ⟨d', bind_eq_ok_iff.mpr ⟨_, _, hlstat, hrun⟩, hfiles⟩
    · rw [hat] at hlstat
      by_cases hrendered : path = [renderedName]
      · obtain ⟨d', hrun, hfiles⟩ := hpassed (by rw [contentAt, hat]; exact if_pos hrendered)
        refine ⟨d', bind_eq_ok_iff.mpr ⟨_, _, hlstat, ?_⟩, hfiles⟩
        dsimp only
        rwa [if_pos hrendered]
      · have hread : sys.read (root ++ path) ⟨d.files, d.calls + 1⟩ =
            (.ok content, ⟨d.files, d.calls + 2⟩) :=
          look_of_ok hsys (FileSystem.read_eq_ok_iff.mpr hat)
        obtain ⟨d₂, hrest₂, hsame₂⟩ : ∃ d₂, filesOf sys root paths ⟨d.files, d.calls + 2⟩ =
            (.ok (listed d.files root paths), d₂) ∧ d₂.files = d.files :=
          ih (d := ⟨d.files, d.calls + 2⟩) hlinks
        refine ⟨d₂, bind_eq_ok_iff.mpr ⟨_, _, hlstat, ?_⟩, hsame₂⟩
        dsimp only
        rw [if_neg hrendered, listed_cons_of_some (contentAt_eq_some.mpr ⟨hat, hrendered⟩)]
        exact bind_eq_ok_iff.mpr ⟨content, _, hread, bind_eq_ok_iff.mpr ⟨_, _, hrest₂, rfl⟩⟩
    · exact absurd hat (hlinks path target)

theorem snapshotFiles_of_noLink (hsys : sys.Faultless) (list : Listing Text Bytes)
    {root : List Text} {d : Disk Text Bytes}
    (hlinks : ∀ q target, d.files.node (root ++ q) ≠ some (.link target)) :
    ∃ d', snapshotFiles sys list root d =
      (.ok (listed d.files root (list.below d.files root)), d') ∧ d'.files = d.files := by
  obtain ⟨d', hrun, hsame⟩ : ∃ d', filesOf sys root (list.below d.files root)
      ⟨d.files, d.calls + 1⟩ = (.ok (listed d.files root (list.below d.files root)), d') ∧
      d'.files = d.files := filesOf_of_noLink hsys hlinks
  exact ⟨d', bind_eq_ok_iff.mpr ⟨_, _, rglob_of_faultless hsys list root d, hrun⟩, hsame⟩

end

/-! ## What an operator verifies -/

/-- The directory of an operator has what was published, and perhaps the derived preview. -/
structure Downloaded (published fs : FileSystem Text Bytes) (output snapshot : List Text) :
    Prop where
  same : ∀ q, q ≠ [renderedName] → fs.node (snapshot ++ q) = published.node (output ++ q)
  preview : ∀ target, fs.node (snapshot ++ [renderedName]) ≠ some (.link target)

/-- `json.loads` gives what a text of JSON says. -/
def LoadsJson (env : ReleaseEnv) : Prop :=
  ∀ text value document, JsonText.loads text = some value → docOf value = some document →
    env.loads (utf8 text) = some document

/-- The answers from outside are those of the release. -/
structure ReleaseAnswers (env : ReleaseEnv) (records : Text → Option (Doc Unit String Atom))
    (commit runId runAttempt : Text) : Prop where
  loads : LoadsJson env
  numeric : env.isdecimal runId
  run : RunOf env commit runId runAttempt
  downloads : env.records runId = some records
  master : env.master = some [commit, masterRef]

/-- There is room for the two temporary directories, and the first one is not made below the
snapshot. -/
structure Room (env : ReleaseEnv) (fs : FileSystem Text Bytes) (snapshot : List Text) : Prop where
  dir : fs.node env.tempDir = some .dir
  free : ∃ c ∈ env.names, fs.node (env.tempDir ++ ["eps-verify-release-".toList ++ c]) = none
  freeBelow : env.namesBelow ≠ []
  apart : ¬ snapshot <+: env.tempDir

section

variable {κ α : Type} [DecidableEq κ] {sys : FileCalls Text Bytes Raised}
  {list : Listing Text Bytes} {yaml : Yaml κ α} {env : ReleaseEnv}
  {records : Text → Option (Doc Unit String Atom)}
  {commit runId runAttempt : Text} {snapshot : List Text}

theorem isDict_of_child {t t' : Doc Unit String Atom} {key : String}
    (h : t.child? (.key key) = some t') : t.isDict := by
  cases t with
  | scalar s => cases h
  | list n c => cases h
  | dict o ks hks c => rfl

theorem says_isDict {t : Doc Unit String Atom} {key : String} {s : Text} (h : Says t key s) :
    t.isDict := by
  rw [Says, docView, Doc.look_cons] at h
  obtain ⟨t', ht', -⟩ := Option.bind_eq_some_iff.mp h
  exact isDict_of_child ht'

theorem textAt_of_child {t : Doc Unit String Atom} {key : String} {s : Text}
    (h : t.child? (.key key) = some (.scalar (.text s))) : textAt t key = some s := by
  rw [textAt, docView, Doc.look_cons, h]
  rfl

/-- A release is bound to its run. -/
theorem boundTo_of_runOf {release run repository : Doc Unit String Atom}
    (hcommit : release.child? (.key "commit") = some (.scalar (.text commit)))
    (hattempt : release.child? (.key "run_attempt") = some (.scalar (.text runAttempt)))
    (hpush : IsMasterPush run) (hsha : Says run "head_sha" commit)
    (hrunAttempt : env.strAt run "run_attempt" = runAttempt)
    (hrepository : run.child? (.key "repository") = some repository)
    (hname : Says repository "full_name" releaseRepository) :
    boundTo env release run = some true := by
  have hequal : decide (env.strAt run "run_attempt" = runAttempt) = true :=
    decide_eq_true hrunAttempt
  rw [boundTo, if_pos (isDict_of_child hrepository), if_pos hpush, hrepository]
  dsimp only
  rw [if_pos (says_isDict hname), if_pos hname, textAt_of_child hcommit, Option.bind_some,
    if_pos hsha, hattempt, Option.map_some]
  exact congrArg some hequal

/-- The comparison accepts a snapshot whose files are those that are rebuilt. -/
theorem compareSnapshot_of_same {node : List Text → Option (Node Text Bytes)}
    {files : List (List Text × Bytes)} {values release : Bytes} {t : List Text}
    {d d₁ d₂ : Disk Text Bytes} (hsys : sys.Faultless)
    (hnode : node = snapshotNode files values release)
    (h : Compared d d₁ d₂ t node) (hroot : d.files.node snapshot = some .dir)
    (hapart : ¬ snapshot <+: t) {paths : List (List Text)}
    (hpaths : ∀ p, (d.files.node p).isSome → p ∈ paths)
    (hsame : ∀ q, q ≠ [renderedName] → d.files.node (snapshot ++ q) = node q) :
    sameFiles (listed d₂.files snapshot (list.below d₂.files snapshot))
      (listed d₂.files (t ++ [expectedName]) (list.below d₂.files (t ++ [expectedName]))) := by
  subst hnode
  have hfinite := h.finite hpaths
  have hfound := h.node_snapshot hroot hapart
  have hroot₂ : d₂.files.node snapshot = some .dir :=
    (h.node_of_isSome (by rw [hroot]; rfl)).trans hroot
  have hall (root : List Text) : Lists sys list d₂.files root (list.below d₂.files root) :=
    fun q hq _ => hq
  have hseen (q : List Text) : sys.SeesAlways q := by
    intro n fault hfault
    rw [hsys n] at hfault
    cases hfault
  refine sameFiles_iff.mpr fun q => ?_
  rw [(hall snapshot).contentIn_eq hroot₂ (mem_map_drop hfinite snapshot) (hseen q),
    (hall _).contentIn_eq h.node_expected (mem_map_drop hfinite _) (hseen q)]
  by_cases hq : q = [renderedName]
  · have hnone (root : List Text) : contentAt d₂.files root q = none := by
      rw [contentAt]
      split
      · exact if_pos hq
      · rfl
    rw [hnone, hnone]
  · rw [contentAt, contentAt, hfound, hsame q hq, h.built]

/-- In a directory that has nothing in it the records are placed and the snapshot is built again. -/
theorem rebuild_of_empty (hsys : sys.Faultless) {sys₀ : FileCalls Text Bytes Raised}
    {parent t : List Text} {name : Text} {candidates : List Text} {d d' e : Disk Text Bytes}
    (hprepared : prepareSnapshot sys₀ yaml records parent name releaseRepository commit runId
      runAttempt (env.archive commit) candidates d = (.ok (), d'))
    (hbelow : env.namesBelow ≠ []) (hdir : e.files.node t = some .dir)
    (hnone : ∀ a, e.files.node (t ++ [a]) = none) :
    ∃ e₂ e₃, sys.mkdir false (t ++ [recordsName]) e = (.ok (), e₂) ∧
      prepareSnapshot sys yaml records t expectedName releaseRepository commit runId runAttempt
        (env.archive commit) env.namesBelow e₂ = (.ok (), e₃) := by
  have hopen : e.files.Open (t ++ [recordsName]) := by
    intro q hq
    rcases List.prefix_concat_iff.mp hq with rfl | hq
    · exact .inl (hnone recordsName)
    · exact .inr (FileSystem.dir_of_start hdir hq)
  obtain ⟨e₂, hmk⟩ : ∃ e₂, sys.mkdir false (t ++ [recordsName]) e = (.ok (), e₂) :=
    mkdir_of_open hsys hopen (by rwa [List.dropLast_concat]) (.inr (hnone recordsName))
  have hmk' := mkdir_eq_ok hmk
  have hnone₂ {a : Text} (ha : a ≠ recordsName) : e₂.files.node (t ++ [a]) = none := by
    rw [hmk'.node]
    dsimp only
    rw [if_neg, hnone]
    intro h
    have heq := h.eq_of_length (by simp)
    exact ha (List.singleton_inj.mp (List.append_cancel_left heq))
  have hdir₂ : e₂.files.node t = some .dir := by
    rw [hmk'.node]
    exact if_pos (List.prefix_append t _)
  have hcandidates : ∃ c ∈ env.namesBelow,
      e₂.files.node (t ++ ["eps-release-".toList ++ c]) = none := by
    obtain ⟨c, hc⟩ := List.exists_mem_of_ne_nil _ hbelow
    refine ⟨c, hc, hnone₂ fun h => ?_⟩
    have hhead : some 'e' = some 'r' := congrArg List.head? h
    exact absurd hhead (by decide)
  obtain ⟨e₃, hprepared'⟩ : ∃ e₃, prepareSnapshot sys yaml records t expectedName releaseRepository
      commit runId runAttempt (env.archive commit) env.namesBelow e₂ = (.ok (), e₃) :=
    prepareSnapshot_again hsys hprepared hdir₂ (hnone₂ (by decide)) (by decide) hcandidates
  exact ⟨e₂, e₃, hmk, hprepared'⟩

/-- The comparison goes through in a directory that was just made. -/
theorem compareSnapshot_of_downloaded (hsys : sys.Faultless) {sys₀ : FileCalls Text Bytes Raised}
    {parent t : List Text} {name : Text} {candidates : List Text} {d d' e e₁ : Disk Text Bytes}
    (hprepared : prepareSnapshot sys₀ yaml records parent name releaseRepository commit runId
      runAttempt (env.archive commit) candidates d = (.ok (), d'))
    (hdownloaded : Downloaded d'.files e.files (parent ++ [name]) snapshot)
    (hanswers : ReleaseAnswers env records commit runId runAttempt) (hbelow : env.namesBelow ≠ [])
    {paths : List (List Text)} (hpaths : ∀ p, (e.files.node p).isSome → p ∈ paths)
    (hfree : e.files.node t = none)
    (hmade : e₁.files.node = Function.update e.files.node t (some .dir))
    (hapart : ¬ snapshot <+: t) :
    ∃ e₂, compareSnapshot sys list yaml env snapshot commit runId runAttempt t e₁ =
      (.ok (), e₂) := by
  have hdir : e₁.files.node t = some .dir := by rw [hmade, Function.update_self]
  have hnone (a : Text) : e₁.files.node (t ++ [a]) = none := by
    rw [hmade, Function.update_of_ne (by simp), FileSystem.node_eq_none_of_append hfree]
  obtain ⟨e₂, e₃, hmk, hprepared'⟩ := rebuild_of_empty hsys hprepared hbelow hdir hnone
  obtain ⟨web, worker, files, dumped, hrelease, hnode⟩ := prepareSnapshot_eq_ok hprepared
  obtain ⟨_, _, _, _, hrelease', hnode'⟩ := prepareSnapshot_eq_ok hprepared'
  obtain ⟨rfl, rfl, rfl, rfl⟩ := hrelease.unique hrelease'
  have hcompared := compared_of_prepared hfree hmade (mkdir_eq_ok hmk) hnode'
  -- what the operator has is what was published
  have hsame : ∀ q, q ≠ [renderedName] → e.files.node (snapshot ++ q) =
      snapshotNode files (utf8 dumped)
        (utf8 (releaseJson commit runId runAttempt web worker)) q := by
    intro q hq
    rw [hdownloaded.same q hq, hnode, if_pos (List.prefix_append _ q), List.drop_left]
  have hroot : e.files.node snapshot = some .dir := by
    have hnil := hsame [] (by simp)
    rwa [List.append_nil] at hnil
  have hfound := hcompared.node_snapshot hroot hapart
  have hlinks : ∀ q target, e₃.files.node (snapshot ++ q) ≠ some (.link target) := by
    intro q target
    rw [hfound]
    by_cases hq : q = [renderedName]
    · rw [hq]
      exact hdownloaded.preview target
    · rw [hsame q hq]
      exact snapshotNode_ne_link q target
  have hlinks' : ∀ q target, e₃.files.node (t ++ [expectedName] ++ q) ≠ some (.link target) := by
    intro q target
    rw [hcompared.built]
    exact snapshotNode_ne_link q target
  obtain ⟨e₄, hfiles, hsame₄⟩ := snapshotFiles_of_noLink hsys list hlinks
  rw [← hsame₄] at hlinks'
  obtain ⟨e₅, hexpected, -⟩ := snapshotFiles_of_noLink hsys list hlinks'
  rw [hsame₄] at hexpected
  have hequal : sameFiles (listed e₃.files snapshot (list.below e₃.files snapshot))
      (listed e₃.files (t ++ [expectedName]) (list.below e₃.files (t ++ [expectedName]))) :=
    compareSnapshot_of_same hsys rfl hcompared hroot hapart hpaths hsame
  exact ⟨e₅, bind_eq_ok_iff.mpr ⟨(), e₂, hmk, bind_eq_ok_iff.mpr
    ⟨records, e₂, Script.orRaise_eq_ok_iff.mpr ⟨hanswers.downloads, rfl⟩, bind_eq_ok_iff.mpr
      ⟨(), e₃, hprepared', bind_eq_ok_iff.mpr ⟨_, e₄, hfiles, bind_eq_ok_iff.mpr
        ⟨_, e₅, hexpected, check_eq_ok_iff.mpr ⟨hequal, rfl⟩⟩⟩⟩⟩⟩⟩

end

/-- **What CI published is accepted.**  A snapshot that was built for a run, whatever faults that
build got over, is accepted on another disk, with or without the derived preview, when that run is
a successful one for the commit that master is at, and the disk has room for temporary
directories and no faults; and the disk is left as it was. -/
theorem verifyRelease_accepts {κ α : Type} [DecidableEq κ] (sys sys' : FileCalls Text Bytes Raised)
    (hsys : sys'.Faultless) (list : Listing Text Bytes) (yaml : Yaml κ α) (env : ReleaseEnv)
    (records : Text → Option (Doc Unit String Atom)) (parent snapshot : List Text)
    (name commit runId runAttempt : Text) (candidates : List Text) (d d' e : Disk Text Bytes)
    (hprepared : prepareSnapshot sys yaml records parent name releaseRepository commit runId
      runAttempt (env.archive commit) candidates d = (.ok (), d'))
    (hdownloaded : Downloaded d'.files e.files (parent ++ [name]) snapshot)
    (hanswers : ReleaseAnswers env records commit runId runAttempt)
    (hroom : Room env e.files snapshot)
    (hdisk : ∃ paths : List (List Text), ∀ p, (e.files.node p).isSome → p ∈ paths) :
    ∃ e', verifyRelease sys' list yaml env snapshot e = (.ok (), e') ∧ e'.files = e.files := by
  obtain ⟨web, worker, files, dumped, hrelease, hnode⟩ := prepareSnapshot_eq_ok hprepared
  obtain ⟨release, hdoc, hcommit, hnumber, hattempt⟩ :=
    docOf_releaseTree commit runId runAttempt web worker
  have hloads := hanswers.loads _ _ release (loads_releaseJson _ _ _ _ _) hdoc
  obtain ⟨run, repository, hgh, hpush, hsha, hrunAttempt, hrepository, hname⟩ := hanswers.run.run
  obtain ⟨paths, hpaths⟩ := hdisk
  -- the release that the snapshot has
  have hcontent : e.files.node (snapshot ++ [releaseName]) =
      some (.file (utf8 (releaseJson commit runId runAttempt web worker))) := by
    rw [hdownloaded.same _ (by decide), hnode, if_pos (List.prefix_append _ _), List.drop_left]
    rfl
  have hread : sys'.read (snapshot ++ [releaseName]) e = (.ok _, ⟨e.files, e.calls + 1⟩) :=
    look_of_ok hsys (FileSystem.read_eq_ok_iff.mpr hcontent)
  have hroot : e.files.node snapshot = some .dir :=
    FileSystem.node_eq_dir_of_append (List.cons_ne_nil releaseName []) (by rw [hcontent]; rfl)
  -- the temporary directory
  obtain ⟨t, e₁, hmake⟩ : ∃ t e₁, sys'.makeTemporary env.tempDir
      (env.names.map ("eps-verify-release-".toList ++ ·)) ⟨e.files, e.calls + 1⟩ =
        (.ok t, e₁) := by
    refine makeTemporary_of_free hsys hroom.dir ?_
    obtain ⟨c, hc, hfree⟩ := hroom.free
    exact ⟨_, List.mem_map_of_mem hc, hfree⟩
  obtain ⟨⟨made, -, rfl⟩, -, hfree, hmade⟩ := makeTemporary_eq_ok hmake
  have hapart : ¬ snapshot <+: env.tempDir ++ [made] := by
    intro h
    rcases List.prefix_concat_iff.mp h with rfl | h
    · rw [hroot] at hfree
      cases hfree
    · exact hroom.apart h
  obtain ⟨e₂, hcompare⟩ : ∃ e₂, compareSnapshot sys' list yaml env snapshot commit runId runAttempt
      (env.tempDir ++ [made]) e₁ = (.ok (), e₂) :=
    compareSnapshot_of_downloaded hsys hprepared hdownloaded hanswers hroom.freeBelow hpaths hfree
      hmade hapart
  obtain ⟨e', hend⟩ := withTemporary_of_ok hsys hmake hcompare
  have hrun : verifyRelease sys' list yaml env snapshot e = (.ok (), e') :=
    bind_eq_ok_iff.mpr ⟨_, _, hread, bind_eq_ok_iff.mpr
      ⟨release, _, Script.orRaise_eq_ok_iff.mpr ⟨hloads, rfl⟩, bind_eq_ok_iff.mpr
      ⟨_, _, Script.orRaise_eq_ok_iff.mpr ⟨hnumber, rfl⟩, bind_eq_ok_iff.mpr
      ⟨(), _, check_eq_ok_iff.mpr ⟨hanswers.numeric, rfl⟩, bind_eq_ok_iff.mpr
      ⟨run, _, Script.orRaise_eq_ok_iff.mpr ⟨hgh, rfl⟩, bind_eq_ok_iff.mpr
      ⟨true, _, Script.orRaise_eq_ok_iff.mpr
        ⟨boundTo_of_runOf hcommit hattempt hpush hsha hrunAttempt hrepository hname, rfl⟩,
      bind_eq_ok_iff.mpr ⟨(), _, check_eq_ok_iff.mpr ⟨rfl, rfl⟩, bind_eq_ok_iff.mpr
      ⟨commit, _, Script.orRaise_eq_ok_iff.mpr ⟨textAt_of_child hcommit, rfl⟩, bind_eq_ok_iff.mpr
      ⟨_, _, Script.orRaise_eq_ok_iff.mpr ⟨hattempt, rfl⟩, bind_eq_ok_iff.mpr
      ⟨(), e', hend, bind_eq_ok_iff.mpr
      ⟨_, _, Script.orRaise_eq_ok_iff.mpr ⟨hanswers.master, rfl⟩,
        check_eq_ok_iff.mpr ⟨decide_eq_true rfl, rfl⟩⟩⟩⟩⟩⟩⟩⟩⟩⟩⟩⟩
  rcases keepsOr_verifyRelease e _ e' hrun with hkept | ⟨⟨_, h⟩, -⟩
  · exact ⟨e', hrun, hkept⟩
  · cases h

/-- The release is accepted where it was published. -/
theorem verifyRelease_accepts_published :
    ∃ e', verifyRelease ⟨fun _ => none, .os⟩ (Listing.choose Text Bytes) blockYaml plainAnswers
      [['o']] publishedDisk = (.ok (), e') ∧ e'.files = publishedDisk.files :=
  verifyRelease_accepts ⟨fun _ => none, .os⟩ ⟨fun _ => none, .os⟩ (fun _ => rfl) _ blockYaml
    plainAnswers (fun image => some (releaseRecord image)) [] [['o']] ['o'] (List.replicate 40 'a')
    ['1'] ['1'] [['x']] ⟨emptyRoot, 0⟩ publishedDisk publishedDisk publishedDisk_prepared
    ⟨fun _ _ => rfl, fun target => by
      have hnone : publishedDisk.files.node ([['o']] ++ [renderedName]) = none := by decide +kernel
      rw [hnone]
      exact (Option.some_ne_none _).symm⟩
    ⟨fun text value document htext hvalue => by
        have hread : plainAnswers.loads (utf8 text) = _ := readDocument_utf8 text
        rw [hread, htext, Option.bind_some, hvalue],
      by decide,
      ⟨masterRun, _, rfl, by decide +kernel, by decide +kernel, by decide +kernel, rfl,
        by decide +kernel⟩, rfl, rfl⟩
    ⟨by decide +kernel, ⟨['x'], List.mem_singleton_self _, by decide +kernel⟩,
      List.cons_ne_nil _ _, by decide⟩ publishedDisk_finite

end EpsCloud
