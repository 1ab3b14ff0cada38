import EpsCloud.Release.VerifyRelease

/-!
# What is verified

A snapshot that `verify_release` accepts is the one of a successful run for the commit that
master is at, file by file, as far as it can be listed: a directory that cannot be opened is
passed over.  The comparison runs in a temporary directory, which could itself be below the
snapshot; then it would be seen, and the comparison would fail.

* `keepsOr_verifyRelease`: the disk is left as it was, but for a temporary directory that cannot
  be removed.
* `Compared.apart`, `inSnapshot_of_compared`, `kept_of_compared`: what the comparison means.
* `verifyRelease_sound`: what a snapshot is that is accepted.
-/

namespace EpsCloud

open Script FileCalls

section

variable {sys : FileCalls Text Bytes Raised} {list : Listing Text Bytes} {root : List Text}
  {d d' : Disk Text Bytes}

/-! ## The disk is left as it was -/

theorem keeps_filesOf (sys : FileCalls Text Bytes Raised) (root : List Text)
    (paths : List (List Text)) :
    (filesOf sys root paths).Keeps (fun _ => True) Disk.files := by
  induction paths with
  | nil => exact .pure _
  | cons path paths ih =>
    refine .bind (keeps_look _) fun node => ?_
    split
    · exact .raise _
    · split_ifs
      · exact ih
      · exact .bind (keeps_look _) fun content => .bind ih fun files => .pure _
    · exact ih

theorem keeps_snapshotFiles (sys : FileCalls Text Bytes Raised) (list : Listing Text Bytes)
    (root : List Text) : (snapshotFiles sys list root).Keeps (fun _ => True) Disk.files :=
  .bind (fun _ _ => ⟨trivial, rfl⟩) fun paths => keeps_filesOf sys root paths

end

section

variable {κ α : Type} [DecidableEq κ] {sys : FileCalls Text Bytes Raised} {yaml : Yaml κ α}
  {records : Text → Option (Doc Unit String Atom)} {parent : List Text}
  {name repository commit runId runAttempt : Text}
  {archive : Option (List (Option (Member Bytes)))} {candidates : List Text}
  {d d' : Disk Text Bytes}

/-- What a snapshot is made of. -/
structure Release (yaml : Yaml κ α) (records : Text → Option (Doc Unit String Atom))
    (repository commit runId runAttempt : Text) (archive : Option (List (Option (Member Bytes))))
    (web worker : Text) (files : List (List Text × Bytes)) (dumped : Text) : Prop where
  full : isHex 40 commit
  complete : IsComplete yaml repository commit web worker files dumped
  archived : ∃ members, archive = some members ∧ files = members.filterMap chartFile
  web : IsBound records webName repository commit runId runAttempt web
  worker : IsBound records workerName repository commit runId runAttempt worker

/-- What is published. -/
theorem Published.release {fs fs' : FileSystem Text Bytes}
    (h : Published yaml records parent name repository commit runId runAttempt archive fs fs') :
    ∃ web worker files dumped,
      Release yaml records repository commit runId runAttempt archive web worker files dumped ∧
      ∀ p, fs'.node p =
        if parent ++ [name] <+: p then
          snapshotNode files (utf8 dumped) (utf8 (releaseJson commit runId runAttempt web worker))
            (p.drop (parent ++ [name]).length)
        else fs.node p := by
  obtain ⟨web, worker, members, dumped, -, hcommit, hweb, hworker, harchive, -, hcomplete, -,
    hnode⟩ := h
  exact ⟨web, worker, members.filterMap chartFile, dumped,
    ⟨hcommit, hcomplete, ⟨members, harchive, rfl⟩, hweb, hworker⟩, hnode⟩

/-- What a run that succeeds publishes. -/
theorem prepareSnapshot_eq_ok
    (hrun : prepareSnapshot sys yaml records parent name repository commit runId runAttempt archive
      candidates d = (.ok (), d')) :
    ∃ web worker files dumped,
      Release yaml records repository commit runId runAttempt archive web worker files dumped ∧
      ∀ p, d'.files.node p =
        if parent ++ [name] <+: p then
          snapshotNode files (utf8 dumped) (utf8 (releaseJson commit runId runAttempt web worker))
            (p.drop (parent ++ [name]).length)
        else d.files.node p := by
  rcases prepareSnapshot_outcomes hrun with ⟨⟨e, h⟩, -⟩ | ⟨fs, hpublished, ⟨-, rfl⟩ | ⟨⟨e, h⟩, -⟩⟩
  · cases h
  · exact hpublished.release
  · cases h

/-- What is published is below the directory of the output. -/
theorem Published.inside {fs fs' : FileSystem Text Bytes}
    (h : Published yaml records parent name repository commit runId runAttempt archive fs fs') :
    fs'.node parent = fs.node parent ∧ fs'.removeTree parent = fs.removeTree parent := by
  obtain ⟨web, worker, files, dumped, -, hnode⟩ := h.release
  refine ⟨?_, ?_⟩
  · rw [hnode, if_neg fun h => by simpa using h.length_le]
  · ext p : 2
    change (if parent <+: p then none else fs'.node p) =
      if parent <+: p then none else fs.node p
    split_ifs with hp
    · rfl
    · rw [hnode, if_neg fun h => hp ((List.prefix_append parent [name]).trans h)]

/-- Nothing is changed outside of the directory of the output. -/
theorem inside_prepareSnapshot : Inside parent (prepareSnapshot sys yaml records parent name
    repository commit runId runAttempt archive candidates) := by
  intro d hdir
  rcases hrun : prepareSnapshot sys yaml records parent name repository commit runId runAttempt
    archive candidates d with ⟨r, d'⟩
  suffices h : d'.files.node parent = d.files.node parent ∧
      d'.files.removeTree parent = d.files.removeTree parent from ⟨h.1.trans hdir, h.2⟩
  rcases prepareSnapshot_outcomes hrun with ⟨-, hsame | hleft⟩ | ⟨fs, hpublished,
    ⟨-, rfl⟩ | ⟨-, hleft⟩⟩
  · rw [hsame]
    exact ⟨rfl, rfl⟩
  · exact hleft.inside
  · exact hpublished.inside
  · exact ⟨hleft.inside.1.trans hpublished.inside.1, hleft.inside.2.trans hpublished.inside.2⟩

end

section

variable {κ α : Type} [DecidableEq κ] {sys : FileCalls Text Bytes Raised}
  {list : Listing Text Bytes} {yaml : Yaml κ α} {env : ReleaseEnv} {snapshot : List Text}
  {d d' : Disk Text Bytes}

theorem inside_compareSnapshot (commit runId runAttempt : Text) (t : List Text) :
    Inside t (compareSnapshot sys list yaml env snapshot commit runId runAttempt t) :=
  .bind (inside_mkdir false (List.prefix_append t _)) fun _ => .bind (.orRaise _ _) fun _ =>
    .bind inside_prepareSnapshot fun _ =>
      .bind (inside_of_keeps (keeps_snapshotFiles sys list snapshot)) fun _ =>
        .bind (inside_of_keeps (keeps_snapshotFiles sys list _)) fun _ => .check _ _

/-- **Verifying leaves the disk as it was**, however it ends, unless it raises because its
temporary directory could not be removed. -/
theorem keepsOr_verifyRelease : (verifyRelease sys list yaml env snapshot).KeepsOr Disk.files
    (LeftBehind env.tempDir (env.names.map ("eps-verify-release-".toList ++ ·))) := by
  have hraise {α' : Type} (o : Option α') :
      (orRaise .elsewhere o : Script (Disk Text Bytes) Raised α').KeepsOr Disk.files
        (LeftBehind env.tempDir (env.names.map ("eps-verify-release-".toList ++ ·))) :=
    (Keeps.orRaise _ o).keepsOr
  have hcheck (e : Raised) (ok : Bool) :
      (check e ok : Script (Disk Text Bytes) Raised Unit).KeepsOr Disk.files
        (LeftBehind env.tempDir (env.names.map ("eps-verify-release-".toList ++ ·))) :=
    (Keeps.check e ok).keepsOr
  refine .bind (keeps_look _).keepsOr fun _ => .bind (hraise _) fun _ => .bind (hraise _) fun _ =>
    .bind (hcheck _ _) fun _ => .bind (hraise _) fun _ => .bind (hraise _) fun _ =>
      .bind (hcheck _ _) fun _ => .bind (hraise _) fun _ => .bind (hraise _) fun _ => ?_
  exact .bind (keepsOr_withTemporary fun t => inside_compareSnapshot _ _ _ t) fun _ =>
    .bind (hraise _) fun _ => hcheck _ _

/-! ## The paths of a snapshot -/

/-- Paths that a snapshot may have something at. -/
def snapshotPaths (files : List (List Text × Bytes)) : List (List Text) :=
  [] :: [releaseName] ::
    ([] :: [valuesName] :: files.flatMap fun file => file.1.inits).map (List.cons chartName)

theorem mem_inits_of_chartNode {files : List (List Text × Bytes)} {q : List Text} (hq : q ≠ [])
    (h : (chartNode files q).isSome) : q ∈ files.flatMap fun file => file.1.inits := by
  rw [chartNode, if_neg hq] at h
  rw [List.mem_flatMap]
  cases hlast : lastContent files q with
  | some content =>
    have hmem : (q, content) ∈ files.reverse := by
      obtain ⟨l₁, l₂, hsplit, -⟩ := List.lookup_eq_some_iff.mp hlast
      exact hsplit ▸ List.mem_append_right _ List.mem_cons_self
    exact ⟨(q, content), List.mem_reverse.mp hmem, (List.mem_inits _ _).mpr List.prefix_rfl⟩
  | none =>
    rw [hlast] at h
    split_ifs at h with hany
    · obtain ⟨file, hfile, hpre⟩ := List.any_eq_true.mp hany
      have hstart := (List.isPrefixOf_iff_prefix.mp hpre).trans (List.dropLast_prefix file.1)
      exact ⟨file, hfile, (List.mem_inits _ _).mpr hstart⟩
    · cases h

theorem mem_snapshotPaths {files : List (List Text × Bytes)} {values release : Bytes}
    {q : List Text} (h : (snapshotNode files values release q).isSome) :
    q ∈ snapshotPaths files := by
  cases q with
  | nil => exact List.mem_cons_self
  | cons a q =>
    rw [snapshotNode] at h
    split_ifs at h with hrelease hnil hchart hvalues
    · rw [hrelease, hnil]
      exact List.mem_cons_of_mem _ List.mem_cons_self
    · cases h
    · rw [hchart, hvalues]
      exact List.mem_cons_of_mem _ (List.mem_cons_of_mem _ (List.mem_map_of_mem
        (List.mem_cons_of_mem _ List.mem_cons_self)))
    · rw [hchart]
      refine List.mem_cons_of_mem _ (List.mem_cons_of_mem _ (List.mem_map_of_mem ?_))
      rcases eq_or_ne q [] with rfl | hq
      · exact List.mem_cons_self
      · exact List.mem_cons_of_mem _ (List.mem_cons_of_mem _ (mem_inits_of_chartNode hq h))
    · cases h

/-! ## What is accepted -/

/-- What the release of a snapshot says that it is. -/
structure Named (env : ReleaseEnv) (fs : FileSystem Text Bytes) (snapshot : List Text)
    (commit runId runAttempt : Text) : Prop where
  release : ∃ content release number attempt,
    fs.node (snapshot ++ [releaseName]) = some (.file content) ∧
    env.loads content = some release ∧ textAt release "commit" = some commit ∧
    release.child? (.key "run_id") = some number ∧ env.strOf number = runId ∧
    release.child? (.key "run_attempt") = some attempt ∧ env.strOf attempt = runAttempt
  numeric : env.isdecimal runId

/-- There is a run of this number, and it was a successful one for a push of the commit to
master of this repository. -/
structure RunOf (env : ReleaseEnv) (commit runId runAttempt : Text) : Prop where
  run : ∃ run repository, env.run runId = some run ∧ IsMasterPush run ∧
    Says run "head_sha" commit ∧ env.strAt run "run_attempt" = runAttempt ∧
    run.child? (.key "repository") = some repository ∧
    Says repository "full_name" releaseRepository

/-- Where it is seen below a root, there is no link, and every file is one of a snapshot, the
preview excepted. -/
structure InSnapshot (seen : List Text → Prop) (fs : FileSystem Text Bytes) (root : List Text)
    (node : List Text → Option (Node Text Bytes)) : Prop where
  noLink : ∀ q, seen q → ∀ target, fs.node (root ++ q) ≠ some (.link target)
  file : ∀ q, seen q → q ≠ [renderedName] → ∀ content,
    fs.node (root ++ q) = some (.file content) → node q = some (.file content)

theorem boundTo_eq_true {release run : Doc Unit String Atom} {commit : Text}
    (hcommit : textAt release "commit" = some commit) (h : boundTo env release run = some true) :
    ∃ repository attempt, IsMasterPush run ∧ Says run "head_sha" commit ∧
      run.child? (.key "repository") = some repository ∧
      Says repository "full_name" releaseRepository ∧
      release.child? (.key "run_attempt") = some attempt ∧
      env.strAt run "run_attempt" = env.strOf attempt := by
  rw [boundTo] at h
  split_ifs at h with hdict hpush
  · cases hrepository : run.child? (.key "repository") with
    | none =>
      rw [hrepository] at h
      cases h
    | some repository =>
      rw [hrepository] at h
      dsimp only at h
      split_ifs at h with hisDict hname
      · rw [hcommit, Option.bind_some] at h
        split_ifs at h with hsha
        · obtain ⟨attempt, hattempt, heq⟩ := Option.map_eq_some_iff.mp h
          exact ⟨repository, attempt, hpush, hsha, rfl, hname, hattempt, of_decide_eq_true heq⟩
        · cases h
      · cases h
  · cases h

/-! ## The comparison -/

/-- The paths below a root, when the disk has finitely many. -/
theorem mem_map_drop {fs : FileSystem Text Bytes} {paths : List (List Text)}
    (h : ∀ p, (fs.node p).isSome → p ∈ paths) (root q : List Text)
    (hq : (fs.node (root ++ q)).isSome) : q ∈ paths.map (List.drop root.length) :=
  List.mem_map.mpr ⟨root ++ q, h _ hq, List.drop_left⟩

/-- The directory that the comparison runs in, and the state that it compares. -/
structure Compared (d d₁ d₂ : Disk Text Bytes) (t : List Text)
    (node : List Text → Option (Node Text Bytes)) : Prop where
  free : d.files.node t = none
  made : d₁.files.node = Function.update d.files.node t (some .dir)
  outside : ∀ p, ¬ t <+: p → d₂.files.node p = d.files.node p
  inside : ∀ p, ¬ t ++ [expectedName] <+: p → (d₂.files.node p).isSome →
    p <+: t ++ [recordsName] ∨ (d.files.node p).isSome
  built : ∀ q, d₂.files.node (t ++ [expectedName] ++ q) = node q

section

variable {d₁ d₂ : Disk Text Bytes} {t : List Text} {files : List (List Text × Bytes)}
  {values release : Bytes}

/-- The state that is compared has finitely many paths too. -/
theorem Compared.finite (h : Compared d d₁ d₂ t (snapshotNode files values release))
    {paths : List (List Text)} (hpaths : ∀ p, (d.files.node p).isSome → p ∈ paths) :
    ∀ p, (d₂.files.node p).isSome → p ∈ paths ++ (t ++ [recordsName]).inits ++
      (snapshotPaths files).map (t ++ [expectedName] ++ ·) := by
  intro p hp
  by_cases hexpected : t ++ [expectedName] <+: p
  · obtain ⟨q, rfl⟩ := hexpected
    rw [h.built] at hp
    exact List.mem_append_right _ (List.mem_map_of_mem (mem_snapshotPaths hp))
  · refine List.mem_append_left _ ?_
    rcases h.inside p hexpected hp with hstart | hold
    · exact List.mem_append_right _ ((List.mem_inits _ _).mpr hstart)
    · exact List.mem_append_left _ (hpaths p hold)

/-- **The temporary directory is not below the snapshot**: else the snapshot would have every file
of the rebuilt one a second time, deeper down, and so would the rebuilt one. -/
theorem Compared.apart (h : Compared d d₁ d₂ t (snapshotNode files values release))
    (hsame : ∀ q, contentAt d₂.files snapshot q =
      contentAt d₂.files (t ++ [expectedName]) q) : ¬ snapshot <+: t := by
  rintro ⟨r, rfl⟩
  have hdeeper : ∀ n : ℕ, ∃ q : List Text, n < q.length ∧
      (contentAt d₂.files (snapshot ++ r ++ [expectedName]) q).isSome := by
    intro n
    induction n with
    | zero =>
      refine ⟨[releaseName], Nat.zero_lt_one, ?_⟩
      rw [contentAt, h.built, snapshotNode, if_pos rfl, if_pos rfl]
      rfl
    | succ n ih =>
      obtain ⟨q, hlen, hq⟩ := ih
      obtain ⟨content, hcontent⟩ := Option.isSome_iff_exists.mp hq
      have hpath : snapshot ++ (r ++ [expectedName] ++ q) =
          snapshot ++ r ++ [expectedName] ++ q := by
        simp only [List.append_assoc]
      have hlonger : n + 1 < (r ++ [expectedName] ++ q).length := by
        simp only [List.length_append, List.length_singleton]
        omega
      have hfound : contentAt d₂.files snapshot (r ++ [expectedName] ++ q) = some content := by
        refine contentAt_eq_some.mpr ⟨?_, fun heq => ?_⟩
        · rw [hpath]
          exact (contentAt_eq_some.mp hcontent).1
        · rw [heq, List.length_singleton] at hlonger
          omega
      refine ⟨r ++ [expectedName] ++ q, hlonger, ?_⟩
      rw [← hsame, hfound]
      rfl
  -- but the paths of a snapshot are finitely many
  obtain ⟨q, hlen, hq⟩ := hdeeper ((snapshotPaths files).map List.length).sum
  obtain ⟨content, hcontent⟩ := Option.isSome_iff_exists.mp hq
  have hnode := (contentAt_eq_some.mp hcontent).1
  rw [h.built] at hnode
  have hmem : q ∈ snapshotPaths files := mem_snapshotPaths (by rw [hnode]; rfl)
  exact absurd (List.single_le_sum (fun _ _ => Nat.zero_le _) _ (List.mem_map_of_mem hmem))
    (not_le.mpr hlen)

/-- Nothing below the snapshot is in the temporary directory. -/
theorem Compared.node_snapshot (h : Compared d d₁ d₂ t (snapshotNode files values release))
    (hroot : d.files.node snapshot = some .dir) (hapart : ¬ snapshot <+: t) (q : List Text) :
    d₂.files.node (snapshot ++ q) = d.files.node (snapshot ++ q) := by
  refine h.outside _ fun hbelow => ?_
  rcases List.prefix_or_prefix_of_prefix hbelow (List.prefix_append snapshot q) with hstart | hstart
  · obtain ⟨r, rfl⟩ := hstart
    rw [FileSystem.node_eq_none_of_append h.free r] at hroot
    cases hroot
  · exact hapart hstart

/-- The state that is compared: the records have a directory, and the snapshot was built. -/
theorem compared_of_prepared {node : List Text → Option (Node Text Bytes)} {d₃ : Disk Text Bytes}
    (hfree : d.files.node t = none)
    (hmade : d₁.files.node = Function.update d.files.node t (some .dir))
    (hrecords : Made d₁.files d₂.files (t ++ [recordsName]))
    (hnode : ∀ p, d₃.files.node p =
      if t ++ [expectedName] <+: p then node (p.drop (t ++ [expectedName]).length)
      else d₂.files.node p) : Compared d d₁ d₃ t node := by
  refine ⟨hfree, hmade, fun p hp => ?_, fun p hp hsome => ?_, fun q => ?_⟩
  · -- a start of the records directory that is not in `t` was there before
    have hstart : p <+: t ++ [recordsName] → p <+: t := by
      intro h
      rcases List.prefix_concat_iff.mp h with rfl | h
      · exact absurd (List.prefix_append t _) hp
      · exact h
    have hne : p ≠ t := by
      rintro rfl
      exact hp List.prefix_rfl
    have hdir : d₁.files.node t = some .dir := by rw [hmade, Function.update_self]
    rw [hnode, if_neg fun h => hp ((List.prefix_append t _).trans h), hrecords.node]
    dsimp only
    split_ifs with h
    · rw [← FileSystem.dir_of_start hdir (hstart h), hmade, Function.update_of_ne hne]
    · rw [hmade, Function.update_of_ne hne]
  · rw [hnode, if_neg hp, hrecords.node] at hsome
    dsimp only at hsome
    split_ifs at hsome with h
    · exact .inl h
    · by_cases hpt : p = t
      · exact absurd (hpt ▸ List.prefix_append t [recordsName]) h
      · rw [hmade, Function.update_of_ne hpt] at hsome
        exact .inr hsome
  · rw [hnode, if_pos (List.prefix_append _ q), List.drop_left]

/-- A comparison that accepts, step by step. -/
theorem compareSnapshot_eq_ok {commit runId runAttempt : Text} (hfree : d.files.node t = none)
    (hmade : d₁.files.node = Function.update d.files.node t (some .dir))
    (hrun : compareSnapshot sys list yaml env snapshot commit runId runAttempt t d₁ =
      (.ok (), d₂)) :
    ∃ records web worker files dumped d₃ found expected, env.records runId = some records ∧
      Release yaml records releaseRepository commit runId runAttempt (env.archive commit) web worker
        files dumped ∧
      Compared d d₁ d₃ t (snapshotNode files (utf8 dumped)
        (utf8 (releaseJson commit runId runAttempt web worker))) ∧
      Lists sys list d₃.files snapshot found ∧
      Lists sys list d₃.files (t ++ [expectedName]) expected ∧
      (∀ q ∈ found, ∀ target, d₃.files.node (snapshot ++ q) ≠ some (.link target)) ∧
      ∀ q, contentIn d₃.files snapshot found q =
        contentIn d₃.files (t ++ [expectedName]) expected q := by
  obtain ⟨_, d₄, hmk, hrun⟩ := bind_eq_ok_iff.mp hrun
  obtain ⟨records, d₅, hget, hrun⟩ := bind_eq_ok_iff.mp hrun
  obtain ⟨hrecords, rfl⟩ := Script.orRaise_eq_ok_iff.mp hget
  obtain ⟨_, d₃, hprep, hrun⟩ := bind_eq_ok_iff.mp hrun
  obtain ⟨_, d₆, hone, hrun⟩ := bind_eq_ok_iff.mp hrun
  obtain ⟨_, d₇, htwo, hrun⟩ := bind_eq_ok_iff.mp hrun
  obtain ⟨hsame, -⟩ := check_eq_ok_iff.mp hrun
  obtain ⟨hfiles, found, hfound, rfl, hlinks⟩ := snapshotFiles_eq_ok hone
  obtain ⟨-, expected, hexpected, rfl, -⟩ := snapshotFiles_eq_ok htwo
  rw [hfiles] at hsame hexpected
  obtain ⟨web, worker, files, dumped, hrelease, hnode⟩ := prepareSnapshot_eq_ok hprep
  exact ⟨records, web, worker, files, dumped, d₃, found, expected, hrecords, hrelease,
    compared_of_prepared hfree hmade (mkdir_eq_ok hmk) hnode, hfound, hexpected, hlinks,
    sameFiles_iff.mp hsame⟩

section

variable {paths found expected : List (List Text)}

/-- What was on the disk before is still there. -/
theorem Compared.node_of_isSome (h : Compared d d₁ d₂ t (snapshotNode files values release))
    {p : List Text} (hp : (d.files.node p).isSome) : d₂.files.node p = d.files.node p := by
  refine h.outside p fun hbelow => ?_
  obtain ⟨r, rfl⟩ := hbelow
  rw [FileSystem.node_eq_none_of_append h.free r] at hp
  cases hp

theorem Compared.node_expected (h : Compared d d₁ d₂ t (snapshotNode files values release)) :
    d₂.files.node (t ++ [expectedName]) = some .dir := by
  have hnil := h.built []
  rwa [List.append_nil] at hnil

/-- Two listings say the same of a path that they do not pass over. -/
theorem Compared.contentAt_eq (h : Compared d d₁ d₂ t (snapshotNode files values release))
    (hpaths : ∀ p, (d.files.node p).isSome → p ∈ paths) (hroot : d.files.node snapshot = some .dir)
    (hfound : Lists sys list d₂.files snapshot found)
    (hexpected : Lists sys list d₂.files (t ++ [expectedName]) expected)
    (hsame : ∀ q, contentIn d₂.files snapshot found q =
      contentIn d₂.files (t ++ [expectedName]) expected q) {q : List Text}
    (hseen : sys.SeesAlways q) :
    contentAt d₂.files snapshot q = contentAt d₂.files (t ++ [expectedName]) q := by
  have hroot₂ : d₂.files.node snapshot = some .dir := by
    rw [h.node_of_isSome (by rw [hroot]; rfl), hroot]
  have hfinite := h.finite hpaths
  calc contentAt d₂.files snapshot q
      = contentIn d₂.files snapshot found q :=
        (hfound.contentIn_eq hroot₂ (mem_map_drop hfinite snapshot) hseen).symm
    _ = contentIn d₂.files (t ++ [expectedName]) expected q := hsame q
    _ = contentAt d₂.files (t ++ [expectedName]) q :=
        hexpected.contentIn_eq h.node_expected (mem_map_drop hfinite _) hseen

/-- **The comparison accepts a snapshot only when its files are those of the rebuilt one.** -/
theorem inSnapshot_of_compared (h : Compared d d₁ d₂ t (snapshotNode files values release))
    (hpaths : ∀ p, (d.files.node p).isSome → p ∈ paths) (hroot : d.files.node snapshot = some .dir)
    (hfound : Lists sys list d₂.files snapshot found)
    (hlinks : ∀ q ∈ found, ∀ target, d₂.files.node (snapshot ++ q) ≠ some (.link target))
    (hsame : ∀ q, sys.SeesAlways q →
      contentAt d₂.files snapshot q = contentAt d₂.files (t ++ [expectedName]) q) :
    InSnapshot sys.SeesAlways d.files snapshot (snapshotNode files values release) := by
  refine ⟨fun q hseen target hq => ?_, fun q hseen hrendered content hfile => ?_⟩
  · have hnode := (h.node_of_isSome (by rw [hq]; rfl)).trans hq
    rcases eq_or_ne q [] with rfl | hne
    · rw [List.append_nil, hroot] at hq
      cases hq
    · exact hlinks q (hfound.mem (mem_map_drop (h.finite hpaths) snapshot) hne (by rw [hnode]; rfl)
        hseen) target hnode
  · have hnode := (h.node_of_isSome (by rw [hfile]; rfl)).trans hfile
    have hboth := hsame q hseen
    rw [contentAt_eq_some.mpr ⟨hnode, hrendered⟩] at hboth
    rw [← h.built]
    exact (contentAt_eq_some.mp hboth.symm).1

theorem snapshotNode_renderedName (files : List (List Text × Bytes)) (values release : Bytes) :
    snapshotNode files values release [renderedName] = none := by
  have hrelease : renderedName ≠ releaseName := by decide
  have hchart : renderedName ≠ chartName := by decide
  rw [snapshotNode, if_neg hrelease, if_neg hchart]

/-- **And only when it has all files of the rebuilt one**, if nothing is passed over or the
temporary directory is not below it. -/
theorem kept_of_compared (h : Compared d d₁ d₂ t (snapshotNode files values release))
    (hroot : d.files.node snapshot = some .dir)
    (hsame : ∀ q, sys.SeesAlways q →
      contentAt d₂.files snapshot q = contentAt d₂.files (t ++ [expectedName]) q)
    (hapart : (∀ q, sys.SeesAlways q) ∨ ¬ snapshot <+: t) {q : List Text}
    (hseen : sys.SeesAlways q) {content : Bytes}
    (hfile : snapshotNode files values release q = some (.file content)) :
    d.files.node (snapshot ++ q) = some (.file content) := by
  have hrendered : q ≠ [renderedName] := by
    rintro rfl
    rw [snapshotNode_renderedName] at hfile
    cases hfile
  have hboth := hsame q hseen
  rw [contentAt_eq_some.mpr ⟨(h.built q).trans hfile, hrendered⟩] at hboth
  have hout : ¬ snapshot <+: t :=
    hapart.elim (fun hall => h.apart fun q => hsame q (hall q)) id
  rw [← h.node_snapshot hroot hout]
  exact (contentAt_eq_some.mp hboth).1

end

end

/-! ## The program -/

/-- A snapshot that is accepted is the one of a successful run for the commit that master is at,
file by file, wherever no listing passes over a path. -/
structure Verified (sys : FileCalls Text Bytes Raised) (env : ReleaseEnv) (yaml : Yaml κ α)
    (fs : FileSystem Text Bytes) (snapshot : List Text)
    (commit runId runAttempt web worker : Text)
    (records : Text → Option (Doc Unit String Atom)) (files : List (List Text × Bytes))
    (dumped : Text) : Prop where
  named : Named env fs snapshot commit runId runAttempt
  run : RunOf env commit runId runAttempt
  release : Release yaml records releaseRepository commit runId runAttempt (env.archive commit) web
    worker files dumped
  downloaded : env.records runId = some records
  content : InSnapshot sys.SeesAlways fs snapshot (snapshotNode files (utf8 dumped)
    (utf8 (releaseJson commit runId runAttempt web worker)))
  kept : (∀ q, sys.SeesAlways q) ∨ ¬ snapshot <+: env.tempDir →
    ∀ q, sys.SeesAlways q → ∀ content, snapshotNode files (utf8 dumped)
      (utf8 (releaseJson commit runId runAttempt web worker)) q = some (.file content) →
        fs.node (snapshot ++ q) = some (.file content)
  master : env.master = some [commit, masterRef]

end

/-- The verification leaves the disk as it was, or raises and leaves its temporary directory
behind; and what is accepted is verified. -/
structure VerifiesOnly {κ α : Type} [DecidableEq κ] (sys : FileCalls Text Bytes Raised)
    (list : Listing Text Bytes) (yaml : Yaml κ α) (env : ReleaseEnv) (snapshot : List Text)
    (d : Disk Text Bytes) : Prop where
  raised : ∀ e d', verifyRelease sys list yaml env snapshot d = (.error e, d') →
    d'.files = d.files ∨ LeftBehind env.tempDir
      (env.names.map ("eps-verify-release-".toList ++ ·)) d.files d'.files
  accepted : ∀ d', verifyRelease sys list yaml env snapshot d = (.ok (), d') →
    d'.files = d.files ∧ ∃ commit runId runAttempt web worker records files dumped,
      Verified sys env yaml d.files snapshot commit runId runAttempt web worker records files dumped

/-! ## A release -/

theorem nodup_repositoryKeys : ["full_name"].Nodup := by decide

theorem nodup_runKeys : ["conclusion", "status", "event", "head_branch", "path", "head_sha",
    "run_attempt", "repository"].Nodup := by decide

/-- A run for a push of the commit of 40 letters `a`. -/
def masterRun : Doc Unit String Atom :=
  .dict () ["conclusion", "status", "event", "head_branch", "path", "head_sha", "run_attempt",
    "repository"] nodup_runKeys fun key =>
    if key = "repository" then
      .dict () ["full_name"] nodup_repositoryKeys fun _ => .scalar (.text releaseRepository)
    else .scalar <| .text <|
      if key = "conclusion" then "success".toList
      else if key = "status" then "completed".toList
      else if key = "event" then "push".toList
      else if key = "head_branch" then "master".toList
      else if key = "path" then ".github/workflows/ci.yml".toList
      else if key = "head_sha" then List.replicate 40 'a'
      else ['1']

/-- The record of an image of the repository, for that commit. -/
def releaseRecord (image : Text) : Doc Unit String Atom :=
  .dict () ["commit", "tag", "run_id", "run_attempt", "image"] nodup_recordKeys fun key =>
    .scalar <| .text <|
      if key = "commit" then List.replicate 40 'a'
      else if key = "tag" then
        imageRepository releaseRepository image ++ ':' :: List.replicate 40 'a'
      else if key = "image" then
        imageRepository releaseRepository image ++ digestMark ++ List.replicate 64 'b'
      else ['1']

/-- The answers about it. -/
def plainAnswers : ReleaseEnv where
  loads := readDocument
  str
    | .scalar (.number literal) => literal.toList
    | .list _ _ => ['[', ']']
    | _ => ['\x7b', '\x7d']
  isdecimal s := s ≠ [] ∧ s.all Char.isDigit
  run runId := if runId = ['1'] then some masterRun else none
  records runId := if runId = ['1'] then some fun image => some (releaseRecord image) else none
  archive commit := if commit = List.replicate 40 'a' then some [emptyValues] else none
  master := some [List.replicate 40 'a', masterRef]
  tempDir := []
  names := [['x']]
  namesBelow := [['x']]

/-- The disk that it was published on. -/
def publishedDisk : Disk Text Bytes :=
  (prepareSnapshot ⟨fun _ => none, .os⟩ blockYaml (fun image => some (releaseRecord image)) [] ['o']
    releaseRepository (List.replicate 40 'a') ['1'] ['1'] (some [emptyValues]) [['x']]
    ⟨emptyRoot, 0⟩).2

theorem publishedDisk_prepared :
    prepareSnapshot ⟨fun _ => none, .os⟩ blockYaml (fun image => some (releaseRecord image)) []
      ['o'] releaseRepository (List.replicate 40 'a') ['1'] ['1'] (some [emptyValues]) [['x']]
      ⟨emptyRoot, 0⟩ = (.ok (), publishedDisk) :=
  Prod.ext (by decide +kernel) rfl

theorem publishedDisk_finite :
    ∃ paths : List (List Text), ∀ p, (publishedDisk.files.node p).isSome → p ∈ paths := by
  obtain ⟨web, worker, files, dumped, -, hnode⟩ := prepareSnapshot_eq_ok publishedDisk_prepared
  refine ⟨[] :: (snapshotPaths files).map ([['o']] ++ ·), fun p hp => ?_⟩
  rw [hnode] at hp
  split_ifs at hp with hout
  · obtain ⟨q, rfl⟩ := hout
    rw [List.drop_left] at hp
    exact List.mem_cons_of_mem _ (List.mem_map_of_mem (mem_snapshotPaths hp))
  · rcases eq_or_ne p [] with rfl | hne
    · exact List.mem_cons_self
    · rw [emptyRoot] at hp
      simp [hne] at hp

/-- **What is verified.**  The verification leaves the disk as it was, or raises and leaves its
temporary directory behind, which it could not remove.  A snapshot that is accepted says that it
is the release of a commit, by an attempt of a numbered run.  That run was a successful one of the
workflow, for a push of the commit to master of this repository, and the commit is what master is
at.  Wherever no listing passes over a path, no link is below the snapshot, and its files are,
path by path and byte by byte, those of the snapshot that is built from the archive of the commit
and the records of the run, the derived preview excepted; that none is missing may need that the
temporary directory is not below the snapshot, if something is passed over. -/
theorem verifyRelease_sound {κ α : Type} [DecidableEq κ] (sys : FileCalls Text Bytes Raised)
    (list : Listing Text Bytes) (yaml : Yaml κ α) (env : ReleaseEnv) (snapshot : List Text)
    (d : Disk Text Bytes)
    (hdisk : ∃ paths : List (List Text), ∀ p, (d.files.node p).isSome → p ∈ paths) :
    VerifiesOnly sys list yaml env snapshot d := by
  refine ⟨fun e d' hrun => (keepsOr_verifyRelease d _ d' hrun).imp_right And.right,
    fun d' hrun => ?_⟩
  have hkept : d'.files = d.files := by
    rcases keepsOr_verifyRelease d _ d' hrun with h | ⟨⟨e, h⟩, -⟩
    · exact h
    · cases h
  refine ⟨hkept, ?_⟩
  obtain ⟨content, s₁, hread, hrun⟩ := bind_eq_ok_iff.mp hrun
  obtain ⟨hnode, hsame₁⟩ := read_eq_ok hread
  obtain ⟨release, s₂, h, hrun⟩ := bind_eq_ok_iff.mp hrun
  obtain ⟨hloads, rfl⟩ := Script.orRaise_eq_ok_iff.mp h
  obtain ⟨number, s₃, h, hrun⟩ := bind_eq_ok_iff.mp hrun
  obtain ⟨hnumber, rfl⟩ := Script.orRaise_eq_ok_iff.mp h
  obtain ⟨_, s₄, h, hrun⟩ := bind_eq_ok_iff.mp hrun
  obtain ⟨hnumeric, rfl⟩ := check_eq_ok_iff.mp h
  obtain ⟨run, s₅, h, hrun⟩ := bind_eq_ok_iff.mp hrun
  obtain ⟨hgh, rfl⟩ := Script.orRaise_eq_ok_iff.mp h
  obtain ⟨bound, s₆, h, hrun⟩ := bind_eq_ok_iff.mp hrun
  obtain ⟨hbound, rfl⟩ := Script.orRaise_eq_ok_iff.mp h
  obtain ⟨_, s₇, h, hrun⟩ := bind_eq_ok_iff.mp hrun
  obtain ⟨rfl, rfl⟩ := check_eq_ok_iff.mp h
  obtain ⟨commit, s₈, h, hrun⟩ := bind_eq_ok_iff.mp hrun
  obtain ⟨hcommit, rfl⟩ := Script.orRaise_eq_ok_iff.mp h
  obtain ⟨attempt, s₉, h, hrun⟩ := bind_eq_ok_iff.mp hrun
  obtain ⟨hattempt, rfl⟩ := Script.orRaise_eq_ok_iff.mp h
  obtain ⟨_, s₁₀, hcompare, hrun⟩ := bind_eq_ok_iff.mp hrun
  obtain ⟨current, s₁₁, h, hrun⟩ := bind_eq_ok_iff.mp hrun
  obtain ⟨hmaster, rfl⟩ := Script.orRaise_eq_ok_iff.mp h
  obtain ⟨hcurrent, -⟩ := check_eq_ok_iff.mp hrun
  obtain ⟨repository, attempt', hpush, hsha, hrepository, hname, hattempt', hequal⟩ :=
    boundTo_eq_true hcommit hbound
  obtain rfl : attempt' = attempt := Option.some.inj (hattempt'.symm.trans hattempt)
  obtain ⟨name, t, d₁, d₂, rfl, hfree, hmade, hone, -⟩ := exists_of_ok hcompare
  rw [hsame₁] at hfree hmade
  obtain ⟨records, web, worker, files, dumped, d₃, found, expected, hrecords, hrelease,
    hcompared, hfound, hexpected, hlinks, hequal₃⟩ := compareSnapshot_eq_ok hfree hmade hone
  obtain ⟨paths, hpaths⟩ := hdisk
  have hroot : d.files.node snapshot = some .dir :=
    FileSystem.node_eq_dir_of_append (List.cons_ne_nil releaseName []) (by rw [hnode]; rfl)
  have hsame {q : List Text} (hseen : sys.SeesAlways q) :=
    hcompared.contentAt_eq hpaths hroot hfound hexpected hequal₃ hseen
  have hapart (h : ¬ snapshot <+: env.tempDir) : ¬ snapshot <+: env.tempDir ++ [name] := by
    intro hbelow
    rcases List.prefix_concat_iff.mp hbelow with rfl | hbelow
    · rw [hroot] at hfree
      cases hfree
    · exact h hbelow
  exact ⟨commit, env.strOf number, env.strOf attempt', web, worker, records, files, dumped,
    ⟨⟨content, release, number, attempt', hnode, hloads, hcommit, hnumber, rfl, hattempt, rfl⟩,
      hnumeric⟩, ⟨run, repository, hgh, hpush, hsha, hequal, hrepository, hname⟩, hrelease,
    hrecords, inSnapshot_of_compared hcompared hpaths hroot hfound hlinks fun _ => hsame,
    fun h q hseen content hfile =>
      kept_of_compared hcompared hroot (fun _ => hsame) (h.imp_right hapart) hseen hfile,
    hmaster.trans (congrArg some (of_decide_eq_true hcurrent))⟩

/-- A release, on the disk that it was published on. -/
theorem verifyRelease_sound_published :
    VerifiesOnly ⟨fun _ => none, .os⟩ (Listing.choose Text Bytes) blockYaml plainAnswers [['o']]
      publishedDisk :=
  verifyRelease_sound ⟨fun _ => none, .os⟩ (Listing.choose Text Bytes) blockYaml plainAnswers
    [['o']] publishedDisk publishedDisk_finite

end EpsCloud
