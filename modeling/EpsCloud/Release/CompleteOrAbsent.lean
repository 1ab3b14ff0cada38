import EpsCloud.Release.SnapshotTree

/-!
# A snapshot is complete or absent

`prepare_snapshot` publishes by the last call that it makes in its private directory, which
renames the complete directory.  So a run that raises before, wherever it does, changes nothing
outside of the private directory, and from then on exactly the snapshot is where nothing was.
What is left is to remove the private directory: if that is refused the run raises, and the
snapshot stays.

* `publishSnapshot_eq_error`, `publishSnapshot_eq_ok`: what a run in the private directory
  changes.
* `prepareSnapshot_complete_or_absent`: the outcomes of a run.
-/

namespace EpsCloud

open Script FileCalls

variable {κ α : Type} [DecidableEq κ] {sys : FileCalls Text Bytes Raised} {yaml : Yaml κ α}
  {repository commit runId runAttempt web worker : Text}
  {members : List (Option (Member Bytes))} {output t : List Text} {d d₁ d₂ : Disk Text Bytes}

theorem buildSnapshot_outside {r : Except Raised Unit} (hdir : HasDir t d₁)
    (hbuild : buildSnapshot sys yaml repository commit runId runAttempt web worker members t d₁ =
      (r, d₂)) : HasDir t d₂ ∧ outside t d₂ = outside t d₁ := by
  have hinside : Inside t
    (buildSnapshot sys yaml repository commit runId runAttempt web worker members t) :=
    inside_buildSnapshot
  have h := hinside d₁ hdir
  rwa [hbuild] at h

/-- **A run that raises in the private directory has changed nothing outside of it**: it raises
before it publishes, or the publishing call is refused. -/
theorem publishSnapshot_eq_error {e : Raised} (hdir : HasDir t d₁)
    (hrun : publishSnapshot sys yaml repository commit runId runAttempt web worker members output t
      d₁ = (.error e, d₂)) : HasDir t d₂ ∧ outside t d₂ = outside t d₁ := by
  rcases bind_eq_error_iff.mp hrun with hbuild | ⟨_, d₃, hbuild, hrename⟩
  · exact buildSnapshot_outside hdir hbuild
  · rw [HasDir, outside, renameDir_eq_error hrename]
    exact buildSnapshot_outside hdir hbuild

theorem node_eq_of_outside (h : outside t d₂ = outside t d₁) {p : List Text} (hp : ¬ t <+: p) :
    d₂.files.node p = d₁.files.node p := by
  have hnode := congrArg (fun fs => fs.node p) h
  simpa only [outside, FileSystem.removeTree, if_neg hp] using hnode

/-- **A run that succeeds in the private directory `t`** has published the complete tree where
nothing was, and has changed nothing else outside of `t`. -/
theorem publishSnapshot_eq_ok (hlen : t.length = output.length) (hfree : d.files.node t = none)
    (hmade : d₁.files.node = Function.update d.files.node t (some .dir))
    (hrun : publishSnapshot sys yaml repository commit runId runAttempt web worker members output t
      d₁ = (.ok (), d₂)) :
    HasDir t d₂ ∧ d.files.node output = none ∧
    (∀ m ∈ members, ∃ member, m = some member ∧
      (member.kind = .directory ∨ (chartFile m).isSome)) ∧
    ∃ dumped, IsComplete yaml repository commit web worker (members.filterMap chartFile) dumped ∧
      ∀ p, (d₂.files.removeTree t).node p =
        if output <+: p then
          snapshotNode (members.filterMap chartFile) (utf8 dumped)
            (utf8 (releaseJson commit runId runAttempt web worker)) (p.drop output.length)
        else d.files.node p := by
  obtain ⟨_, d₃, hbuild, hrename⟩ := bind_eq_ok_iff.mp hrun
  obtain ⟨-, -, -, hfreeOut, hnode⟩ := FileSystem.renameDir_eq_ok_iff.mp (renameDir_eq_ok hrename)
  have hdir : HasDir t d₁ := by rw [HasDir, hmade, Function.update_self]
  have hinside := buildSnapshot_outside hdir hbuild
  -- The output is not the private directory, which is there.
  have hne : t ≠ output := by
    rintro rfl
    exact Option.some_ne_none _ (hinside.1.symm.trans hfreeOut)
  have hapart {p : List Text} (hp : output <+: p) : ¬ t <+: p := fun ht =>
    hne ((List.prefix_of_prefix_length_le ht hp hlen.le).eq_of_length hlen)
  have hsame {p : List Text} (hp : ¬ t <+: p) : d₃.files.node p = d.files.node p := by
    rw [node_eq_of_outside hinside.2 hp, hmade, Function.update_of_ne]
    rintro rfl
    exact hp List.prefix_rfl
  have hbelow (q : List Text) : d₁.files.node (t ++ [snapshotName] ++ q) = none := by
    rw [hmade, Function.update_of_ne (by simp), List.append_assoc]
    exact FileSystem.node_eq_none_of_append hfree _
  obtain ⟨htaken, dumped, hcomplete, hstaged⟩ := buildSnapshot_eq_ok hbelow hbuild
  have hkept : HasDir t d₂ := by
    have hstaging : ¬ t ++ [snapshotName] <+: t := fun h => by simpa using h.length_le
    rw [HasDir, hnode]
    dsimp only
    rw [if_neg fun h => hapart h List.prefix_rfl, if_neg hstaging]
    exact hinside.1
  refine ⟨hkept, (hsame (hapart List.prefix_rfl)).symm.trans hfreeOut, htaken, dumped, hcomplete,
    fun p => ?_⟩
  change (if t <+: p then none else d₂.files.node p) = _
  rw [hnode]
  dsimp only
  by_cases hout : output <+: p
  · rw [if_neg (hapart hout), if_pos hout, if_pos hout, hstaged]
  · rw [if_neg hout, if_neg hout]
    by_cases ht : t <+: p
    · obtain ⟨r, rfl⟩ := ht
      rw [if_pos (List.prefix_append t r), FileSystem.node_eq_none_of_append hfree]
    · rw [if_neg ht, if_neg fun h => ht ((List.prefix_append t _).trans h), hsame ht]

/-! ## Records -/

theorem notMem_of_isHex {n : ℕ} {s : Text} {c : Char} (h : isHex n s) (hc : isHexDigit c = false) :
    c ∉ s := by
  intro hmem
  have hall := List.all_eq_true.mp (Bool.and_eq_true_iff.mp h).2 c hmem
  rw [hc] at hall
  cases hall

/-- The reference comes from the record of the image, which is bound to the release run. -/
structure IsBound (records : Text → Option (Doc Unit String Atom))
    (image repository commit runId runAttempt ref : Text) : Prop where
  record : ∃ record, records image = some record ∧
    docView record "commit" = some (.scalar (.text commit)) ∧
    docView record "tag" =
      some (.scalar (.text (imageRepository repository image ++ ':' :: commit))) ∧
    docView record "run_id" = some (.scalar (.text runId)) ∧
    docView record "run_attempt" = some (.scalar (.text runAttempt)) ∧
    docView record "image" = some (.scalar (.text ref))
  form : ∃ digits, isHex 64 digits ∧
    ref = imageRepository repository image ++ digestMark ++ digits

theorem isBound_of_eq_some {records : Text → Option (Doc Unit String Atom)}
    {image repository commit runId runAttempt ref : Text} (hcommit : isHex 40 commit)
    (h : ((records image).bind fun record =>
      validateRecord record repository image commit runId runAttempt) = some ref) :
    IsBound records image repository commit runId runAttempt ref := by
  obtain ⟨record, hrecord, hvalid⟩ := Option.bind_eq_some_iff.mp h
  obtain ⟨h₁, h₂, h₃, h₄, h₅, hform⟩ :=
    (validateRecord_eq_some_iff (notMem_of_isHex hcommit (by decide))).mp hvalid
  exact ⟨⟨record, hrecord, h₁, h₂, h₃, h₄, h₅⟩, hform⟩

/-! ## The two outcomes -/

section

variable {records : Text → Option (Doc Unit String Atom)} {parent : List Text} {name : Text}
  {archive : Option (List (Option (Member Bytes)))} {candidates : List Text}

/-- A run raises before it makes its private directory, or goes on with two bound references. -/
theorem prepareSnapshot_cases {r : Except Raised Unit}
    (hrun : prepareSnapshot sys yaml records parent name repository commit runId runAttempt archive
      candidates d = (r, d₂)) :
    ((∃ e, r = .error e) ∧ d₂.files = d.files) ∨
      ∃ web worker members d₁, isHex 40 commit ∧
        IsBound records webName repository commit runId runAttempt web ∧
        IsBound records workerName repository commit runId runAttempt worker ∧
        archive = some members ∧ d₁.files = d.files ∧
        sys.withTemporary parent (candidates.map ("eps-release-".toList ++ ·))
          (publishSnapshot sys yaml repository commit runId runAttempt web worker members
            (parent ++ [name])) d₁ = (r, d₂) := by
  rcases bind_cases hrun with ⟨e, rfl, h⟩ | ⟨_, s₁, h, hrun⟩
  · exact .inl ⟨⟨e, rfl⟩, by rw [check_eq_error h]⟩
  obtain ⟨hcommit, rfl⟩ := check_eq_ok_iff.mp h
  rcases bind_cases hrun with ⟨e, rfl, h⟩ | ⟨present, s₂, h, hrun⟩
  · exact .inl ⟨⟨e, rfl⟩, look_files h⟩
  have hfiles := look_files h
  rcases bind_cases hrun with ⟨e, rfl, h⟩ | ⟨_, s₃, h, hrun⟩
  · exact .inl ⟨⟨e, rfl⟩, by rw [check_eq_error h, hfiles]⟩
  obtain ⟨-, rfl⟩ := check_eq_ok_iff.mp h
  rcases bind_cases hrun with ⟨e, rfl, h⟩ | ⟨web, s₄, h, hrun⟩
  · exact .inl ⟨⟨e, rfl⟩, by rw [Script.orRaise_eq_error h, hfiles]⟩
  obtain ⟨hweb, rfl⟩ := Script.orRaise_eq_ok_iff.mp h
  rcases bind_cases hrun with ⟨e, rfl, h⟩ | ⟨worker, s₅, h, hrun⟩
  · exact .inl ⟨⟨e, rfl⟩, by rw [Script.orRaise_eq_error h, hfiles]⟩
  obtain ⟨hworker, rfl⟩ := Script.orRaise_eq_ok_iff.mp h
  rcases bind_cases hrun with ⟨e, rfl, h⟩ | ⟨members, s₆, h, hrun⟩
  · exact .inl ⟨⟨e, rfl⟩, by rw [Script.orRaise_eq_error h, hfiles]⟩
  obtain ⟨harchive, rfl⟩ := Script.orRaise_eq_ok_iff.mp h
  exact .inr ⟨web, worker, members, _, hcommit, isBound_of_eq_some hcommit hweb,
    isBound_of_eq_some hcommit hworker, harchive, hfiles, hrun⟩

end

theorem isName_of_chartFile {m : Option (Member Bytes)} (h : (chartFile m).isSome) :
    ∃ path content, chartFile m = some (path, content) ∧ ∀ a ∈ path, IsName a := by
  obtain ⟨⟨path, content⟩, hfile⟩ := Option.isSome_iff_exists.mp h
  refine ⟨path, content, hfile, fun a ha => ?_⟩
  cases m with
  | none => cases hfile
  | some member =>
    obtain ⟨-, hfile⟩ := Option.ite_none_right_eq_some.mp hfile
    obtain ⟨q, hq, hfile⟩ := Option.bind_eq_some_iff.mp hfile
    obtain ⟨c, -, hpair⟩ := Option.map_eq_some_iff.mp hfile
    cases hpair
    exact isName_of_chartPath hq ha

/-- A value that says which commit and run a release is of, and what its two images are. -/
structure SaysRelease (t : JsonText.Tree) (commit runId runAttempt web worker : Text) : Prop where
  commit : t.member? "commit".toList = some (.text (JsonText.codes commit))
  run : t.member? "run_id".toList = some (.text (JsonText.codes runId))
  attempt : t.member? "run_attempt".toList = some (.text (JsonText.codes runAttempt))
  web : (t.member? "images".toList).bind (JsonText.Tree.member? "web".toList) =
    some (.text (JsonText.codes web))
  worker : (t.member? "images".toList).bind (JsonText.Tree.member? "worker".toList) =
    some (.text (JsonText.codes worker))
  notReady : t.member? "deployment_ready".toList = some (.bool false)

theorem saysRelease_releaseTree (commit runId runAttempt web worker : Text) :
    SaysRelease (releaseTree commit runId runAttempt web worker) commit runId runAttempt web
      worker :=
  ⟨rfl, rfl, rfl, rfl, rfl, rfl⟩

/-- The complete snapshot has been put where nothing was, and nothing else has changed: the files
of the archive, the last one where a path repeats, at names that stay inside the chart, the values
with their image section replaced, and the release, which is read back as JSON that says what it
is.  The commit is a full one, and both references come from records that are bound to this release
run. -/
def Published (yaml : Yaml κ α) (records : Text → Option (Doc Unit String Atom))
    (parent : List Text) (name repository commit runId runAttempt : Text)
    (archive : Option (List (Option (Member Bytes)))) (fs fs' : FileSystem Text Bytes) : Prop :=
  ∃ web worker members dumped,
    fs.node (parent ++ [name]) = none ∧ isHex 40 commit ∧
    IsBound records webName repository commit runId runAttempt web ∧
    IsBound records workerName repository commit runId runAttempt worker ∧
    archive = some members ∧
    (∀ m ∈ members, ∃ member, m = some member ∧ (member.kind = .directory ∨
      ∃ path content, chartFile m = some (path, content) ∧ ∀ a ∈ path, IsName a)) ∧
    IsComplete yaml repository commit web worker (members.filterMap chartFile) dumped ∧
    (∃ t, JsonText.loads (releaseJson commit runId runAttempt web worker) = some t ∧
      SaysRelease t commit runId runAttempt web worker) ∧
    ∀ p, fs'.node p =
      if parent ++ [name] <+: p then
        snapshotNode (members.filterMap chartFile) (utf8 dumped)
          (utf8 (releaseJson commit runId runAttempt web worker))
          (p.drop (parent ++ [name]).length)
      else fs.node p

/-- A run raises and has changed nothing but for its private directory, or it has published, and
raises only if its private directory is left behind. -/
theorem prepareSnapshot_outcomes {records : Text → Option (Doc Unit String Atom)}
    {parent : List Text} {name : Text} {archive : Option (List (Option (Member Bytes)))}
    {candidates : List Text} {r : Except Raised Unit}
    (hrun : prepareSnapshot sys yaml records parent name repository commit runId runAttempt archive
      candidates d = (r, d₂)) :
    ((∃ e, r = .error e) ∧ (d₂.files = d.files ∨
      LeftBehind parent (candidates.map ("eps-release-".toList ++ ·)) d.files d₂.files)) ∨
    ∃ fs, Published yaml records parent name repository commit runId runAttempt archive d.files fs ∧
      ((r = .ok () ∧ d₂.files = fs) ∨ ((∃ e, r = .error e) ∧
        LeftBehind parent (candidates.map ("eps-release-".toList ++ ·)) fs d₂.files)) := by
  rcases prepareSnapshot_cases hrun with ⟨herror, hfiles⟩ | ⟨web, worker, members, d₁, hcommit,
    hweb, hworker, harchive, hfiles, hrun⟩
  · exact .inl ⟨herror, .inl hfiles⟩
  rcases withTemporary_cases hrun with ⟨herror, hsame⟩ | ⟨a, ha, d₃, r₁, d₄, hfree, hmade, hone,
    hend⟩
  · exact .inl ⟨herror, .inl (hsame.trans hfiles)⟩
  rw [hfiles] at hfree hmade
  cases r₁ with
  | error e =>
    have hdir : HasDir (parent ++ [a]) d₃ := by rw [HasDir, hmade, Function.update_self]
    obtain ⟨hkept, hout⟩ := publishSnapshot_eq_error hdir hone
    have hwas : d₄.files.removeTree (parent ++ [a]) = d.files := outside_of_made hfree hmade hout
    rcases hend with ⟨rfl, hfiles'⟩ | ⟨herror, hout', hnode⟩
    · exact .inl ⟨⟨e, rfl⟩, .inl (hfiles'.trans hwas)⟩
    · exact .inl ⟨herror, .inr ⟨a, ha, hfree, hnode.trans hkept, hout'.trans hwas⟩⟩
  | ok u =>
    obtain ⟨hkept, habsent, htaken, dumped, hcomplete, hnode⟩ :=
      publishSnapshot_eq_ok (by simp) hfree hmade hone
    refine .inr ⟨d₄.files.removeTree (parent ++ [a]), ⟨web, worker, members, dumped, habsent,
      hcommit, hweb, hworker, harchive, fun m hm => ?_, hcomplete,
      ⟨_, loads_releaseJson _ _ _ _ _, saysRelease_releaseTree _ _ _ _ _⟩, hnode⟩, ?_⟩
    · obtain ⟨member, rfl, hkind⟩ := htaken m hm
      exact ⟨member, rfl, hkind.imp_right isName_of_chartFile⟩
    · rcases hend with hend | ⟨herror, hout, hsame⟩
      · exact .inl hend
      · exact .inr ⟨herror, a, ha, if_pos List.prefix_rfl, hsame.trans hkept, hout⟩

/-- **A snapshot is complete or absent.**  A run that raises has changed nothing outside of its
private directory, which is gone or is left behind because it could not be removed; or it has
published the complete snapshot, and it raises only because the private directory is left behind.
A run that succeeds has published the complete snapshot and changed nothing else. -/
theorem prepareSnapshot_complete_or_absent (sys : FileCalls Text Bytes Raised) (yaml : Yaml κ α)
    (records : Text → Option (Doc Unit String Atom)) (parent : List Text)
    (name repository commit runId runAttempt : Text)
    (archive : Option (List (Option (Member Bytes)))) (candidates : List Text)
    (d : Disk Text Bytes) :
    match prepareSnapshot sys yaml records parent name repository commit runId runAttempt archive
      candidates d with
    | (.error _, d') => d'.files = d.files ∨
        LeftBehind parent (candidates.map ("eps-release-".toList ++ ·)) d.files d'.files ∨
        ∃ fs, Published yaml records parent name repository commit runId runAttempt archive
            d.files fs ∧
          LeftBehind parent (candidates.map ("eps-release-".toList ++ ·)) fs d'.files
    | (.ok (), d') => Published yaml records parent name repository commit runId runAttempt archive
        d.files d'.files := by
  rcases hrun : prepareSnapshot sys yaml records parent name repository commit runId runAttempt
    archive candidates d with ⟨e | u, d'⟩
  · rcases prepareSnapshot_outcomes hrun with ⟨-, h⟩ | ⟨fs, hpublished, ⟨h, -⟩ | ⟨-, hleft⟩⟩
    · exact h.imp_right .inl
    · cases h
    · exact .inr (.inr ⟨fs, hpublished, hleft⟩)
  · rcases prepareSnapshot_outcomes hrun with ⟨⟨e, h⟩, -⟩ | ⟨fs, hpublished, ⟨-, h⟩ | ⟨⟨e, h⟩, -⟩⟩
    · cases h
    · rw [← h] at hpublished
      exact hpublished
    · cases h

/-! ## A run -/

/-- A file system with a root. -/
def emptyRoot : FileSystem Text Bytes where
  node p := if p = [] then some .dir else none
  parent p a h := by simp at h

theorem nodup_recordKeys : ["commit", "tag", "run_id", "run_attempt", "image"].Nodup := by decide

/-- The record of an image of `r`, for the commit of 40 letters `a`. -/
def plainRecord (image : Text) : Doc Unit String Atom :=
  .dict () ["commit", "tag", "run_id", "run_attempt", "image"] nodup_recordKeys fun key =>
    .scalar <| .text <|
      if key = "commit" then List.replicate 40 'a'
      else if key = "tag" then imageRepository ['r'] image ++ ':' :: List.replicate 40 'a'
      else if key = "image" then
        imageRepository ['r'] image ++ digestMark ++ List.replicate 64 'b'
      else ['1']

/-- What the package does with mappings of keys to texts that need no quotes; of the texts that it
loads, only the empty mapping is told. -/
def blockYaml : Yaml String (List (String × Text)) where
  load b := if b = utf8 ['\x7b', '\x7d', '\n'] then some Dict.empty else none
  dump values :=
    if values.entries = [] then some ['\x7b', '\x7d', '\n']
    else some (values.entries.flatMap fun e => e.1.toList ++ [':', '\n'] ++
      e.2.flatMap fun f => [' ', ' '] ++ f.1.toList ++ [':', ' '] ++ f.2 ++ ['\n'])
  key := id
  mapping := id

/-- A member for a file of the chart. -/
def chartMember (name content : String) : Option (Member Bytes) :=
  some ⟨"deploy/helm/eps".toList ++ name.toList, .regular, some (some (utf8 content.toList))⟩

/-- The values of the chart, which are empty. -/
def emptyValues : Option (Member Bytes) := chartMember "/values-production.yaml" "\x7b\x7d\n"

/-- A run to the output `name` on an empty disk. -/
def plainRun (fault : ℕ → Option (Fault Text Bytes)) (name : Text)
    (members : List (Option (Member Bytes))) : Except Raised Unit × Disk Text Bytes :=
  prepareSnapshot ⟨fault, .os⟩ blockYaml (fun image => some (plainRecord image)) [] name ['r']
    (List.replicate 40 'a') ['1'] ['1'] (some members) [['x']] ⟨emptyRoot, 0⟩

/-- Call number 12, which removes the private directory, is refused. -/
def unremovable (n : ℕ) : Option (Fault Text Bytes) := if n = 12 then some .refused else none

/-- **A run may raise and change the output path.**  The private directory cannot be removed after
the snapshot was published; or it bears the name of the output, and then it is left there and is
no snapshot. -/
theorem raises_and_changes_output :
    ((plainRun unremovable ['o'] [emptyValues]).1 = .error (.os .refused) ∧
      emptyRoot.node [['o']] = none ∧
      (plainRun unremovable ['o'] [emptyValues]).2.files.node [['o']] = some .dir) ∧
    ((plainRun unremovable "eps-release-x".toList [emptyValues]).1 = .error (.os .refused) ∧
      emptyRoot.node ["eps-release-x".toList] = none ∧
      (plainRun unremovable "eps-release-x".toList [emptyValues]).2.files.node
        ["eps-release-x".toList] = some .dir ∧
      (plainRun unremovable "eps-release-x".toList [emptyValues]).2.files.node
        ["eps-release-x".toList, releaseName] = none) := by
  decide +kernel

/-- The last of two files at one path is published. -/
example : (plainRun (fun _ => none) ['o'] [emptyValues, chartMember "/a/b" "1",
    chartMember "//a/./b" "2"]).2.files.node [['o'], chartName, ['a'], ['b']] =
      some (.file (utf8 ['2'])) := by
  decide +kernel

end EpsCloud
