import EpsCloud.Release.Snapshot

/-!
# What a snapshot contains

The loop over the members makes the directories that a file needs and writes the file, so a
file that comes again replaces the one before, and a file where a directory is, or the other
way round, is refused.

* `extractMember_staged`: one turn of the loop.
* `buildSnapshot_eq_ok`: the tree that is built, path by path.
* `inside_buildSnapshot`: nothing is changed outside of the private directory.
-/

namespace EpsCloud

open Script FileCalls

/-! ## Files of the chart -/

/-- Where a member comes in the chart, with its content. -/
def chartFile : Option (Member Bytes) → Option (List Text × Bytes)
  | none => none
  | some member =>
    if member.kind = .regular then
      (chartPath member.name).bind fun path =>
        (member.file.bind id).map fun content => (path, content)
    else none

/-- The content of the last file at a path. -/
def lastContent (files : List (List Text × Bytes)) (q : List Text) : Option Bytes :=
  files.reverse.lookup q

/-- What the chart has at a path: a file, a directory that a file is in, or nothing. -/
def chartNode (files : List (List Text × Bytes)) (q : List Text) : Option (Node Text Bytes) :=
  if q = [] then some .dir
  else
    match lastContent files q with
    | some content => some (.file content)
    | none => if files.any fun f => q.isPrefixOf f.1.dropLast then some .dir else none

/-- What the snapshot has at a path before the values are changed. -/
def stagedNode (files : List (List Text × Bytes)) : List Text → Option (Node Text Bytes)
  | [] => some .dir
  | a :: q => if a = chartName then chartNode files q else none

/-- What the complete snapshot has at a path. -/
def snapshotNode (files : List (List Text × Bytes)) (values release : Bytes) :
    List Text → Option (Node Text Bytes)
  | [] => some .dir
  | a :: q =>
    if a = releaseName then if q = [] then some (.file release) else none
    else if a = chartName then
      if q = [valuesName] then some (.file values) else chartNode files q
    else none

theorem lastContent_append (files : List (List Text × Bytes)) (p q : List Text) (content : Bytes) :
    lastContent (files ++ [(p, content)]) q =
      if q = p then some content else lastContent files q := by
  rw [lastContent, List.reverse_append, List.reverse_singleton, List.singleton_append,
    List.lookup_cons]
  split_ifs with h
  · rw [beq_iff_eq.mpr h]
  · rw [beq_false_of_ne h]
    rfl

theorem any_append (files : List (List Text × Bytes)) (p q : List Text) (content : Bytes) :
    (files ++ [(p, content)]).any (fun f => q.isPrefixOf f.1.dropLast) =
      (files.any (fun f => q.isPrefixOf f.1.dropLast) || q.isPrefixOf p.dropLast) := by
  rw [List.any_append, List.any_cons, List.any_nil, Bool.or_false]

/-- What one file more changes in the chart. -/
theorem chartNode_append {files : List (List Text × Bytes)} {p q : List Text} {content : Bytes}
    (hp : p ≠ []) (hfree : q <+: p.dropLast →
      chartNode files q = none ∨ chartNode files q = some .dir) :
    chartNode (files ++ [(p, content)]) q =
      if q = p then some (.file content)
      else if q <+: p.dropLast then some .dir else chartNode files q := by
  rcases eq_or_ne q [] with rfl | hq
  · rw [chartNode, chartNode, if_pos rfl, if_pos rfl, if_neg hp.symm,
      if_pos (List.nil_prefix)]
  unfold chartNode at hfree ⊢
  rw [if_neg hq, if_neg hq, lastContent_append, any_append]
  rw [if_neg hq] at hfree
  by_cases hqp : q = p
  · rw [if_pos hqp, if_pos hqp]
  · rw [if_neg hqp, if_neg hqp]
    by_cases hpre : q <+: p.dropLast
    · have hnone : lastContent files q = none := by
        cases hlast : lastContent files q with
        | none => rfl
        | some c =>
          rw [hlast] at hfree
          rcases hfree hpre with h | h <;> cases h
      rw [if_pos hpre, hnone, List.isPrefixOf_iff_prefix.mpr hpre, Bool.or_true]
      rfl
    · rw [if_neg hpre, Bool.eq_false_iff.mpr (mt List.isPrefixOf_iff_prefix.mp hpre), Bool.or_false]

theorem lastContent_of_chartNode {files : List (List Text × Bytes)} {q : List Text}
    {content : Bytes} (h : chartNode files q = some (.file content)) :
    lastContent files q = some content := by
  unfold chartNode at h
  cases hlast : lastContent files q with
  | some c =>
    rw [hlast] at h
    split_ifs at h <;> cases h <;> rfl
  | none =>
    rw [hlast] at h
    split_ifs at h <;> cases h

/-! ## The loop -/

variable {sys : FileCalls Text Bytes Raised} {fs fs₁ fs₂ : FileSystem Text Bytes}
  {d d' : Disk Text Bytes} {staging : List Text} {files : List (List Text × Bytes)}

/-- The snapshot so far. -/
def Staged (fs : FileSystem Text Bytes) (staging : List Text)
    (node : List Text → Option (Node Text Bytes)) : Prop :=
  ∀ q, fs.node (staging ++ q) = node q

/-- **A file is added**: what is on the way to it is a directory, and it is a file. -/
theorem Staged.add {p : List Text} {content : Bytes}
    (hstaged : Staged fs staging (stagedNode files))
    (hmade : Made fs fs₁ (staging ++ [chartName] ++ p).dropLast)
    (hwrite : fs₁.write (staging ++ [chartName] ++ p) content = .ok fs₂) :
    Staged fs₂ staging (stagedNode (files ++ [(p, content)])) := by
  obtain ⟨-, hfree, hnode⟩ := FileSystem.write_eq_ok_iff.mp hwrite
  -- The chart is a directory, so the file is below it.
  have hp : p ≠ [] := by
    rintro rfl
    have hchart : fs₁.node (staging ++ [chartName] ++ []) = some .dir := by
      rw [hmade.node, List.append_nil]
      dsimp only
      rw [hstaged [chartName]]
      split_ifs <;> rfl
    rw [hchart] at hfree
    rcases hfree with h | ⟨c, h⟩ <;> cases h
  have hparent : (staging ++ [chartName] ++ p).dropLast = staging ++ chartName :: p.dropLast := by
    rw [List.dropLast_append_of_ne_nil hp, List.append_assoc, List.singleton_append]
  rw [hparent] at hmade
  rw [List.append_assoc, List.singleton_append] at hnode
  intro q
  rw [hnode, Function.update_apply, hmade.node]
  simp only [List.append_cancel_left_eq, List.prefix_append_right_inj, hstaged q]
  cases q with
  | nil => simp [stagedNode]
  | cons a q =>
    rw [stagedNode, stagedNode]
    simp only [List.cons.injEq, List.cons_prefix_cons]
    by_cases ha : a = chartName
    · have hbefore := hmade.free (staging ++ chartName :: q)
      rw [List.prefix_append_right_inj, List.cons_prefix_cons, hstaged] at hbefore
      simp only [true_and, stagedNode, if_true] at hbefore
      simp only [ha, true_and, if_true]
      rw [chartNode_append hp hbefore]
    · simp [ha]

/-- **One turn of the loop** adds the file of its member, if it has one. -/
theorem extractMember_staged {m : Option (Member Bytes)}
    (hstaged : Staged d.files staging (stagedNode files))
    (hrun : extractMember sys (staging ++ [chartName]) m d = (.ok (), d')) :
    Staged d'.files staging (stagedNode (files ++ (chartFile m).toList)) ∧
      ∃ member, m = some member ∧ (member.kind = .directory ∨ (chartFile m).isSome) := by
  cases m with
  | none => exact absurd hrun raise_ne_ok
  | some member =>
    unfold extractMember at hrun
    dsimp only at hrun
    cases hkind : member.kind with
    | directory =>
      rw [hkind] at hrun
      obtain ⟨-, rfl⟩ := pure_eq_ok_iff.mp hrun
      have hnone : chartFile (some member) = none := by
        rw [chartFile, if_neg (by rw [hkind]; decide)]
      rw [hnone, Option.toList_none, List.append_nil]
      exact ⟨hstaged, member, rfl, .inl hkind⟩
    | other =>
      rw [hkind] at hrun
      exact absurd hrun raise_ne_ok
    | regular =>
      rw [hkind] at hrun
      obtain ⟨path, d₁, hget, hrun⟩ := bind_eq_ok_iff.mp hrun
      obtain ⟨hpath, rfl⟩ := orRaise_eq_ok_iff.mp hget
      obtain ⟨content, d₂, hget, hrun⟩ := bind_eq_ok_iff.mp hrun
      obtain ⟨hcontent, rfl⟩ := orRaise_eq_ok_iff.mp hget
      obtain ⟨_, d₃, hmade, hrun⟩ := bind_eq_ok_iff.mp hrun
      obtain ⟨bytes, d₄, hbytes, hwrite⟩ := bind_eq_ok_iff.mp hrun
      obtain ⟨rfl, rfl⟩ := orRaise_eq_ok_iff.mp hbytes
      have hfile : chartFile (some member) = some (path, bytes) := by
        rw [chartFile, if_pos hkind, hpath, hcontent]
        rfl
      rw [hfile]
      exact ⟨hstaged.add (mkdirs_eq_ok hmade) (write_eq_ok hwrite), member, rfl, .inr rfl⟩

/-- **The loop over the members** adds the file of each, and takes no others than directories and
files. -/
theorem extractMembers_staged {archive : List (Option (Member Bytes))}
    (hstaged : Staged d.files staging (stagedNode []))
    (hrun : archive.forM (extractMember sys (staging ++ [chartName])) d = (.ok ⟨⟩, d')) :
    Staged d'.files staging (stagedNode (archive.filterMap chartFile)) ∧
      ∀ m ∈ archive, ∃ member, m = some member ∧
        (member.kind = .directory ∨ (chartFile m).isSome) := by
  refine forM_induct (P := fun done d₁ => Staged d₁.files staging
    (stagedNode (done.filterMap chartFile)) ∧ ∀ m ∈ done, ∃ member, m = some member ∧
      (member.kind = .directory ∨ (chartFile m).isSome)) hrun ⟨hstaged, by simp⟩ ?_
  intro done m d₁ d₂ hdone hone
  obtain ⟨hnext, htaken⟩ := extractMember_staged hdone.1 hone
  have hfiles : (done ++ [m]).filterMap chartFile =
      done.filterMap chartFile ++ (chartFile m).toList := by
    rw [List.filterMap_append]
    cases hfile : chartFile m <;> simp [hfile]
  rw [hfiles]
  refine ⟨hnext, fun m' hm' => ?_⟩
  rcases List.mem_append.mp hm' with hm' | hm'
  · exact hdone.2 m' hm'
  · exact List.mem_singleton.mp hm' ▸ htaken

/-! ## The whole tree -/

variable {κ α : Type} [DecidableEq κ] {yaml : Yaml κ α}
  {repository commit runId runAttempt web worker : Text}
  {archive : List (Option (Member Bytes))} {temporary : List Text}

/-- The directories that the snapshot starts with. -/
theorem staged_of_made (hfree : ∀ q, fs.node (staging ++ q) = none)
    (hmade : Made fs fs₁ (staging ++ [chartName])) : Staged fs₁ staging (stagedNode []) := by
  intro q
  rw [hmade.node]
  simp only [List.prefix_append_right_inj, hfree q]
  cases q with
  | nil => simp [stagedNode]
  | cons a q =>
    rw [stagedNode, chartNode]
    simp only [List.cons_prefix_cons, List.prefix_nil]
    by_cases ha : a = chartName
    · by_cases hq : q = []
      · simp [ha, hq]
      · simp [ha, hq, lastContent]
    · simp [ha]

/-- What the values and the release are when the snapshot is complete. -/
structure IsComplete (yaml : Yaml κ α) (repository commit web worker : Text)
    (files : List (List Text × Bytes)) (dumped : Text) : Prop where
  values : ∃ content values, lastContent files [valuesName] = some content ∧
    yaml.load content = some values ∧
    yaml.dump (values.set (yaml.key "image")
      (yaml.mapping (imageSection repository commit web worker))) = some dumped

/-- **The tree that is built.** -/
theorem buildSnapshot_eq_ok (hfree : ∀ q, d.files.node (temporary ++ [snapshotName] ++ q) = none)
    (hrun : buildSnapshot sys yaml repository commit runId runAttempt web worker archive temporary
      d = (.ok (), d')) :
    (∀ m ∈ archive, ∃ member, m = some member ∧
      (member.kind = .directory ∨ (chartFile m).isSome)) ∧
    ∃ dumped, IsComplete yaml repository commit web worker (archive.filterMap chartFile) dumped ∧
      Staged d'.files (temporary ++ [snapshotName])
        (snapshotNode (archive.filterMap chartFile) (utf8 dumped)
          (utf8 (releaseJson commit runId runAttempt web worker))) := by
  obtain ⟨_, d₁, hdirs, hrun⟩ := bind_eq_ok_iff.mp hrun
  obtain ⟨_, d₂, hmembers, hrun⟩ := bind_eq_ok_iff.mp hrun
  obtain ⟨content, d₃, hread, hrun⟩ := bind_eq_ok_iff.mp hrun
  obtain ⟨values, d₄, hget, hrun⟩ := bind_eq_ok_iff.mp hrun
  obtain ⟨hload, rfl⟩ := Script.orRaise_eq_ok_iff.mp hget
  obtain ⟨dumped, d₅, hget, hrun⟩ := bind_eq_ok_iff.mp hrun
  obtain ⟨hdump, rfl⟩ := Script.orRaise_eq_ok_iff.mp hget
  obtain ⟨_, d₆, hvalues, hrelease⟩ := bind_eq_ok_iff.mp hrun
  obtain ⟨hstaged, htaken⟩ := extractMembers_staged (staged_of_made hfree (mkdirs_eq_ok hdirs))
    hmembers
  obtain ⟨hnode, hsame⟩ := read_eq_ok hread
  obtain ⟨-, -, hvaluesNode⟩ := FileSystem.write_eq_ok_iff.mp (write_eq_ok hvalues)
  obtain ⟨-, -, hreleaseNode⟩ := FileSystem.write_eq_ok_iff.mp (write_eq_ok hrelease)
  refine ⟨htaken, dumped, ⟨content, values, ?_, hload, hdump⟩, fun q => ?_⟩
  · refine lastContent_of_chartNode ?_
    rw [List.append_assoc, hstaged, List.singleton_append, stagedNode, if_pos rfl] at hnode
    exact hnode
  · rw [hreleaseNode, Function.update_apply, hvaluesNode, Function.update_apply, hsame,
      hstaged q, List.append_assoc _ [chartName]]
    simp only [List.append_cancel_left_eq]
    cases q with
    | nil => rfl
    | cons a q =>
      rw [stagedNode, snapshotNode]
      simp only [List.cons.injEq, List.singleton_append]
      by_cases hr : a = releaseName
      · have hc : releaseName ≠ chartName := by decide
        simp [hr, hc]
      · simp only [hr, false_and, if_false]
        by_cases hc : a = chartName
        · simp [hc]
        · simp [hc]

/-! ## Outside of the private directory -/

theorem inside_extractMember {t chart : List Text} (ht : t <+: chart.dropLast)
    (m : Option (Member Bytes)) : Inside t (extractMember sys chart m) := by
  cases m with
  | none => exact .raise _
  | some member =>
    unfold extractMember
    dsimp only
    cases member.kind with
    | directory => exact .pure _
    | other => exact .raise _
    | regular =>
      refine .bind (.orRaise _ _) fun path => .bind (.orRaise _ _) fun content => ?_
      have hparent : chart.dropLast <+: (chart ++ path).dropLast := by
        rw [List.dropLast_append]
        split_ifs
        · exact List.prefix_rfl
        · exact (List.dropLast_prefix chart).trans (List.prefix_append _ _)
      have htarget := (ht.trans hparent).trans (List.dropLast_prefix _)
      exact .bind (inside_mkdirs true _ (ht.trans hparent)) fun _ =>
        .bind (.orRaise _ _) fun bytes => inside_write bytes htarget

/-- **Nothing is changed outside of the private directory.** -/
theorem inside_buildSnapshot : Inside temporary
    (buildSnapshot sys yaml repository commit runId runAttempt web worker archive temporary) := by
  have hstaging : temporary <+: temporary ++ [snapshotName] := List.prefix_append _ _
  have hbelow (q : List Text) : temporary <+: temporary ++ [snapshotName] ++ q :=
    hstaging.trans (List.prefix_append _ q)
  refine .bind (inside_mkdirs false _ (hbelow _)) fun _ => .bind (.forM fun m _ => ?_) fun _ =>
    .bind (inside_read _) fun content => .bind (.orRaise _ _) fun values =>
      .bind (.orRaise _ _) fun dumped => .bind (inside_write _ ?_) fun _ =>
        inside_write _ (hbelow _)
  · refine inside_extractMember ?_ m
    rw [List.dropLast_concat]
    exact hstaging
  · rw [List.append_assoc]
    exact hbelow _

end EpsCloud
