import EpsCloud.Release.CompleteOrAbsent

/-!
# Verifying a release

`verify_release` takes a snapshot that an operator has downloaded, looks up the run that it says
it comes from, builds the snapshot of that run again in a temporary directory, and compares the
two file by file.

`gh api`, `gh run download`, `git archive` and `git ls-remote` answer from outside, and their
answers come parsed; what is downloaded is not on the disk of the model.

* `docOf_releaseTree`: what `release.json` is loaded as.
* `verifyRelease`: the program.
* `snapshotFiles_eq_ok`, `sameFiles_iff`: what is compared.
-/

namespace EpsCloud

open Script FileCalls

/-! ## Documents -/

/-- The character of a code point, if it is no surrogate. -/
def charOf (c : JsonText.Code) : Option Char :=
  if (Char.ofNat c.point).toNat = c.point then some (Char.ofNat c.point) else none

/-- A mapping of some keys, of which the last value of each counts. -/
def mappingOf (members : List (String × Doc Unit String Atom)) : Doc Unit String Atom :=
  members.foldl (fun t m => t.setKey m.1 m.2) (.dict () [] List.nodup_nil fun _ => .scalar .null)

theorem mappingOf_concat (members : List (String × Doc Unit String Atom))
    (m : String × Doc Unit String Atom) :
    mappingOf (members ++ [m]) = (mappingOf members).setKey m.1 m.2 := by
  rw [mappingOf, List.foldl_append]
  rfl

theorem isDict_mappingOf (members : List (String × Doc Unit String Atom)) :
    (mappingOf members).isDict := by
  induction members using List.reverseRecOn with
  | nil => rfl
  | append_singleton members m ih => rw [mappingOf_concat, Doc.isDict_setKey, ih]

/-- The last value of a key counts. -/
theorem child?_mappingOf (members : List (String × Doc Unit String Atom)) (key : String) :
    (mappingOf members).child? (.key key) = members.reverse.lookup key := by
  induction members using List.reverseRecOn with
  | nil => rfl
  | append_singleton members m ih =>
    rw [mappingOf_concat, Doc.child?_setKey, ih, List.reverse_append, List.reverse_singleton,
      List.singleton_append, List.lookup_cons]
    by_cases hkey : key = m.1
    · rw [if_pos ⟨isDict_mappingOf members, congrArg _ hkey⟩, beq_iff_eq.mpr hkey]
    · rw [if_neg fun h => hkey (Doc.Step.key.inj h.2), beq_false_of_ne hkey]

mutual

/-- What `json.loads` gives for a value without surrogates. -/
def docOf : JsonText.Tree → Option (Doc Unit String Atom)
  | .text s => (s.mapM charOf).map fun s => .scalar (.text s)
  | .bool b => some (.scalar (.bool b))
  | .object members => (membersOf members).map mappingOf

def membersOf : List (List JsonText.Code × JsonText.Tree) →
    Option (List (String × Doc Unit String Atom))
  | [] => some []
  | (key, value) :: members =>
    (key.mapM charOf).bind fun key => (docOf value).bind fun value =>
      (membersOf members).map (List.cons (String.ofList key, value))

end

theorem charOf_ofChar (c : Char) : charOf (.ofChar c) = some c := by
  have hc : Char.ofNat (JsonText.Code.ofChar c).point = c := Char.ofNat_toNat c
  rw [charOf, hc]
  exact if_pos rfl

theorem mapM_charOf_codes (s : Text) : (JsonText.codes s).mapM charOf = some s := by
  induction s with
  | nil => rfl
  | cons c s ih =>
    rw [JsonText.codes] at ih ⊢
    rw [List.map_cons, List.mapM_cons, charOf_ofChar, ih]
    rfl

theorem mapM_charOf_jsonKey (key : String) : (jsonKey key).mapM charOf = some key.toList :=
  mapM_charOf_codes _

/-- **What `release.json` is loaded as.** -/
theorem docOf_releaseTree (commit runId runAttempt web worker : Text) :
    ∃ release, docOf (releaseTree commit runId runAttempt web worker) = some release ∧
      release.child? (.key "commit") = some (.scalar (.text commit)) ∧
      release.child? (.key "run_id") = some (.scalar (.text runId)) ∧
      release.child? (.key "run_attempt") = some (.scalar (.text runAttempt)) := by
  simp only [releaseTree, docOf, membersOf, mapM_charOf_jsonKey, mapM_charOf_codes,
    Option.map_some, Option.bind_some, String.ofList_toList, Option.some.injEq, exists_eq_left',
    child?_mappingOf]
  exact ⟨rfl, rfl, rfl⟩

/-- `bytes.decode("utf-8")`, if they can be decoded. -/
def decodeUtf8 (b : Bytes) : Option Text := (String.fromUTF8? b.toByteArray).map String.toList

theorem decodeUtf8_utf8 (s : Text) : decodeUtf8 (utf8 s) = some s := by
  have hvalid : (utf8 s).toByteArray.IsValidUTF8 := .intro s rfl
  have hread : String.fromUTF8? (utf8 s).toByteArray = some (String.ofList s) := dif_pos hvalid
  rw [decodeUtf8, hread, Option.map_some, String.toList_ofList]

/-- The document in some bytes. -/
def readDocument (b : Bytes) : Option (Doc Unit String Atom) :=
  (decodeUtf8 b).bind fun s => (JsonText.loads s).bind docOf

theorem readDocument_utf8 (s : Text) : readDocument (utf8 s) = (JsonText.loads s).bind docOf := by
  rw [readDocument, decodeUtf8_utf8, Option.bind_some]

/-! ## What is compared -/

/-- What comes from outside of the program; a value is `none` where getting it raises. -/
structure ReleaseEnv where
  /-- `json.loads` of what a file says -/
  loads : Bytes → Option (Doc Unit String Atom)
  /-- `str` of a number, a list or a mapping -/
  str : Doc Unit String Atom → Text
  /-- `str.isdecimal` -/
  isdecimal : Text → Bool
  /-- `gh api repos/…/actions/runs/…` -/
  run : Text → Option (Doc Unit String Atom)
  /-- the records of the two images that `gh run download` gets of a run -/
  records : Text → Option (Text → Option (Doc Unit String Atom))
  /-- `git archive` of a commit -/
  archive : Text → Option (List (Option (Member Bytes)))
  /-- the words of `git ls-remote origin refs/heads/master` -/
  master : Option (List Text)
  /-- `tempfile.gettempdir()`, and the names that `tempfile` tries there and below -/
  tempDir : List Text
  names : List Text
  namesBelow : List Text

/-- `REPOSITORY` -/
def releaseRepository : Text := "omniops-mm/eps-cloud".toList

def renderedName : Text := "rendered.yaml".toList

def recordsName : Text := "records".toList

def expectedName : Text := "expected".toList

def masterRef : Text := "refs/heads/master".toList

/-- `str` of a value that `json.loads` gives. -/
def ReleaseEnv.strOf (env : ReleaseEnv) : Doc Unit String Atom → Text
  | .scalar (.text s) => s
  | .scalar .null => "None".toList
  | .scalar (.bool true) => "True".toList
  | .scalar (.bool false) => "False".toList
  | t => env.str t

/-- `str(t.get(key))` -/
def ReleaseEnv.strAt (env : ReleaseEnv) (t : Doc Unit String Atom) (key : String) : Text :=
  match t.child? (.key key) with
  | some value => env.strOf value
  | none => "None".toList

/-- The mapping has the text at the key. -/
def Says (t : Doc Unit String Atom) (key : String) (s : Text) : Prop :=
  docView t key = some (.scalar (.text s))

instance (t : Doc Unit String Atom) (key : String) (s : Text) : Decidable (Says t key s) :=
  inferInstanceAs (Decidable (docView t key = some _))

/-- The text at the key, if it is one. -/
def textAt (t : Doc Unit String Atom) (key : String) : Option Text :=
  match docView t key with
  | some (.scalar (.text s)) => some s
  | _ => none

/-- The run is a completed, successful run of the workflow for a push to master. -/
structure IsMasterPush (run : Doc Unit String Atom) : Prop where
  conclusion : Says run "conclusion" "success".toList
  status : Says run "status" "completed".toList
  event : Says run "event" "push".toList
  branch : Says run "head_branch" "master".toList
  path : Says run "path" ".github/workflows/ci.yml".toList

instance (run : Doc Unit String Atom) : Decidable (IsMasterPush run) :=
  decidable_of_iff (Says run "conclusion" "success".toList ∧ Says run "status" "completed".toList ∧
      Says run "event" "push".toList ∧ Says run "head_branch" "master".toList ∧
      Says run "path" ".github/workflows/ci.yml".toList)
    ⟨fun h => ⟨h.1, h.2.1, h.2.2.1, h.2.2.2.1, h.2.2.2.2⟩,
      fun h => ⟨h.conclusion, h.status, h.event, h.branch, h.path⟩⟩

/-- Is the release bound to the run?  A commit that is not a text is refused here or, where it
equals that of the run, by the `re` of `prepare_snapshot`. -/
def boundTo (env : ReleaseEnv) (release run : Doc Unit String Atom) : Option Bool :=
  if run.isDict then
    if IsMasterPush run then
      match run.child? (.key "repository") with
      | none => some false
      | some repository =>
        if repository.isDict then
          if Says repository "full_name" releaseRepository then
            (textAt release "commit").bind fun commit =>
              if Says run "head_sha" commit then
                (release.child? (.key "run_attempt")).map fun attempt =>
                  decide (env.strAt run "run_attempt" = env.strOf attempt)
              else some false
          else some false
        else none
    else some false
  else none

/-- The content of the file at a path below the root, unless it is the preview. -/
def contentAt (fs : FileSystem Text Bytes) (root path : List Text) : Option Bytes :=
  match fs.node (root ++ path) with
  | some (.file content) => if path = [renderedName] then none else some content
  | _ => none

/-- `==` of two mappings. -/
def sameFiles (a b : List (List Text × Bytes)) : Bool :=
  (a.all fun file => b.lookup file.1 = some file.2) &&
    b.all fun file => a.lookup file.1 = some file.2

/-! ## The program -/

section

variable (sys : FileCalls Text Bytes Raised) (list : Listing Text Bytes)

/-- The loop of `snapshot_files`; the derived preview is never part of the production chart. -/
def filesOf (root : List Text) :
    List (List Text) → Script (Disk Text Bytes) Raised (List (List Text × Bytes))
  | [] => pure []
  | path :: paths => do
    match ← sys.lstat (root ++ path) with
    | some (.link _) => raise (.value "Snapshot symlinks are forbidden")
    | some (.file _) =>
      if path = [renderedName] then filesOf root paths
      else do
        let content ← sys.read (root ++ path)
        let files ← filesOf root paths
        return (path, content) :: files
    | _ => filesOf root paths

/-- `snapshot_files` -/
def snapshotFiles (root : List Text) :
    Script (Disk Text Bytes) Raised (List (List Text × Bytes)) := do
  let paths ← sys.rglob list root
  filesOf sys root paths

variable {κ α : Type} [DecidableEq κ] (yaml : Yaml κ α) (env : ReleaseEnv)

/-- What runs in the temporary directory: build the snapshot of the run again, and compare. -/
def compareSnapshot (snapshot : List Text) (commit runId runAttempt : Text)
    (temporary : List Text) : Script (Disk Text Bytes) Raised Unit := do
  sys.mkdir false (temporary ++ [recordsName])
  let records ← orRaise .elsewhere (env.records runId)
  prepareSnapshot sys yaml records temporary expectedName releaseRepository commit runId runAttempt
    (env.archive commit) env.namesBelow
  let found ← snapshotFiles sys list snapshot
  let expected ← snapshotFiles sys list (temporary ++ [expectedName])
  check (.value "Snapshot differs from the exact source and image records")
    (sameFiles found expected)

/-- `verify_release` -/
def verifyRelease (snapshot : List Text) : Script (Disk Text Bytes) Raised Unit := do
  let content ← sys.read (snapshot ++ [releaseName])
  let release ← orRaise .elsewhere (env.loads content)
  let number ← orRaise .elsewhere (release.child? (.key "run_id"))
  let runId := env.strOf number
  check (.value "Expected a numeric CI run ID") (env.isdecimal runId)
  let run ← orRaise .elsewhere (env.run runId)
  let bound ← orRaise .elsewhere (boundTo env release run)
  check (.value "Snapshot is not bound to a successful master CI run") bound
  let commit ← orRaise .elsewhere (textAt release "commit")
  let attempt ← orRaise .elsewhere (release.child? (.key "run_attempt"))
  sys.withTemporary env.tempDir (env.names.map ("eps-verify-release-".toList ++ ·))
    (compareSnapshot sys list yaml env snapshot commit runId (env.strOf attempt))
  let current ← orRaise .elsewhere env.master
  check (.value "Source was superseded; verify the newer successful run")
    (current = [commit, masterRef])

end

/-! ## What is compared -/

section

variable {sys : FileCalls Text Bytes Raised} {list : Listing Text Bytes} {root : List Text}
  {d d' : Disk Text Bytes}

/-- The files of a listing, with their contents. -/
def listed (fs : FileSystem Text Bytes) (root : List Text) (paths : List (List Text)) :
    List (List Text × Bytes) :=
  paths.filterMap fun path => (contentAt fs root path).map (Prod.mk path)

theorem listed_cons_of_none {fs : FileSystem Text Bytes} {path : List Text}
    (h : contentAt fs root path = none) (paths : List (List Text)) :
    listed fs root (path :: paths) = listed fs root paths := by
  rw [listed, List.filterMap_cons, h]
  rfl

theorem listed_cons_of_some {fs : FileSystem Text Bytes} {path : List Text} {content : Bytes}
    (h : contentAt fs root path = some content) (paths : List (List Text)) :
    listed fs root (path :: paths) = (path, content) :: listed fs root paths := by
  rw [listed, List.filterMap_cons, h]
  rfl

theorem contentAt_eq_some {fs : FileSystem Text Bytes} {q : List Text} {content : Bytes} :
    contentAt fs root q = some content ↔
      fs.node (root ++ q) = some (.file content) ∧ q ≠ [renderedName] := by
  rw [contentAt]
  cases hnode : fs.node (root ++ q) with
  | none => simp
  | some n =>
    cases n with
    | dir => simp
    | link target => simp
    | file c =>
      by_cases hq : q = [renderedName]
      · simp [hq]
      · simp [hq]

/-- **One turn of the loop** passes over what is no file and over the preview, reads a file, and
takes no link. -/
theorem filesOf_cons_eq_ok {path : List Text} {paths : List (List Text)}
    {files : List (List Text × Bytes)}
    (hrun : filesOf sys root (path :: paths) d = (.ok files, d')) :
    (∀ target, d.files.node (root ++ path) ≠ some (.link target)) ∧
      ∃ d₁ rest, d₁.files = d.files ∧ filesOf sys root paths d₁ = (.ok rest, d') ∧
        ((contentAt d.files root path = none ∧ files = rest) ∨
          ∃ content, contentAt d.files root path = some content ∧
            files = (path, content) :: rest) := by
  obtain ⟨node, d₁, hlook, hrun⟩ := bind_eq_ok_iff.mp hrun
  obtain ⟨hnode, hsame⟩ := look_eq_ok hlook
  have hat : d.files.node (root ++ path) = node := Except.ok.inj hnode
  have hpassed (hnone : contentAt d.files root path = none)
      (hrest : filesOf sys root paths d₁ = (.ok files, d')) :
      ∃ d₁ rest, d₁.files = d.files ∧ filesOf sys root paths d₁ = (.ok rest, d') ∧
        ((contentAt d.files root path = none ∧ files = rest) ∨
          ∃ content, contentAt d.files root path = some content ∧
            files = (path, content) :: rest) :=
    ⟨d₁, files, hsame, hrest, .inl ⟨hnone, rfl⟩⟩
  rcases node with _ | _ | c | target
  · exact ⟨by simp [hat], hpassed (by simp [contentAt, hat]) hrun⟩
  · exact ⟨by simp [hat], hpassed (by simp [contentAt, hat]) hrun⟩
  · refine ⟨by simp [hat], ?_⟩
    dsimp only at hrun
    split_ifs at hrun with hrendered
    · exact hpassed (by rw [contentAt, hat]; exact if_pos hrendered) hrun
    · obtain ⟨content, d₂, hread, hrun⟩ := bind_eq_ok_iff.mp hrun
      obtain ⟨hfile, hsame₂⟩ := read_eq_ok hread
      obtain ⟨rest, d₃, hrest, hrun⟩ := bind_eq_ok_iff.mp hrun
      obtain ⟨rfl, rfl⟩ := pure_eq_ok_iff.mp hrun
      rw [hsame] at hfile
      exact ⟨d₂, rest, hsame₂.trans hsame, hrest,
        .inr ⟨content, contentAt_eq_some.mpr ⟨hfile, hrendered⟩, rfl⟩⟩
  · exact absurd hrun raise_ne_ok

/-- The loop gives every file of the listing but the preview, and takes no link. -/
theorem filesOf_eq_ok {paths : List (List Text)} {files : List (List Text × Bytes)}
    (hrun : filesOf sys root paths d = (.ok files, d')) :
    d'.files = d.files ∧ files = listed d.files root paths ∧
      ∀ path ∈ paths, ∀ target, d.files.node (root ++ path) ≠ some (.link target) := by
  induction paths generalizing d files with
  | nil =>
    obtain ⟨rfl, rfl⟩ := pure_eq_ok_iff.mp hrun
    exact ⟨rfl, rfl, by simp⟩
  | cons path paths ih =>
    obtain ⟨hlink, d₁, rest, hsame, hrest, hfiles⟩ := filesOf_cons_eq_ok hrun
    obtain ⟨hfs, hrest, hlinks⟩ := ih hrest
    rw [hsame] at hfs hrest hlinks
    refine ⟨hfs, ?_, List.forall_mem_cons.mpr ⟨hlink, hlinks⟩⟩
    rcases hfiles with ⟨hnone, rfl⟩ | ⟨content, hsome, rfl⟩
    · rw [listed_cons_of_none hnone, hrest]
    · rw [listed_cons_of_some hsome, hrest]

theorem mem_listed_iff {fs : FileSystem Text Bytes} {paths : List (List Text)}
    {file : List Text × Bytes} :
    file ∈ listed fs root paths ↔ file.1 ∈ paths ∧ contentAt fs root file.1 = some file.2 := by
  rw [listed, List.mem_filterMap]
  constructor
  · rintro ⟨path, hpath, hfile⟩
    obtain ⟨content, hcontent, rfl⟩ := Option.map_eq_some_iff.mp hfile
    exact ⟨hpath, hcontent⟩
  · rintro ⟨hpath, hcontent⟩
    exact ⟨file.1, hpath, by rw [hcontent]; rfl⟩

/-- What a listing has at a path. -/
def contentIn (fs : FileSystem Text Bytes) (root : List Text) (paths : List (List Text))
    (q : List Text) : Option Bytes :=
  if q ∈ paths then contentAt fs root q else none

theorem lookup_listed (fs : FileSystem Text Bytes) (paths : List (List Text)) (q : List Text) :
    (listed fs root paths).lookup q = contentIn fs root paths q := by
  unfold contentIn
  induction paths with
  | nil => rfl
  | cons path paths ih =>
    cases hcontent : contentAt fs root path with
    | none =>
      rw [listed_cons_of_none hcontent, ih]
      by_cases hq : q = path
      · rw [hq, hcontent, ite_self, ite_self]
      · simp [hq]
    | some content =>
      rw [listed_cons_of_some hcontent, List.lookup_cons]
      by_cases hq : q = path
      · rw [beq_iff_eq.mpr hq, hq, if_pos List.mem_cons_self, hcontent]
      · rw [beq_false_of_ne hq, ih]
        simp [hq]

theorem mem_listed_iff_contentIn {fs : FileSystem Text Bytes} {paths : List (List Text)}
    {q : List Text} {content : Bytes} :
    (q, content) ∈ listed fs root paths ↔ contentIn fs root paths q = some content := by
  rw [mem_listed_iff, contentIn, Option.ite_none_right_eq_some]

/-- **Two listings are equal when they have the same at each path.** -/
theorem sameFiles_iff {fs fs' : FileSystem Text Bytes} {root' : List Text}
    {paths paths' : List (List Text)} :
    sameFiles (listed fs root paths) (listed fs' root' paths') ↔
      ∀ q, contentIn fs root paths q = contentIn fs' root' paths' q := by
  rw [sameFiles, Bool.and_eq_true, List.all_eq_true, List.all_eq_true]
  constructor
  · rintro ⟨hab, hba⟩ q
    ext content
    constructor
    · intro hcontent
      have hmem := mem_listed_iff_contentIn.mpr hcontent
      exact (lookup_listed fs' paths' q).symm.trans (of_decide_eq_true (hab _ hmem))
    · intro hcontent
      have hmem := mem_listed_iff_contentIn.mpr hcontent
      exact (lookup_listed fs paths q).symm.trans (of_decide_eq_true (hba _ hmem))
  · intro hsame
    refine ⟨fun file hfile => decide_eq_true ?_, fun file hfile => decide_eq_true ?_⟩
    · rw [lookup_listed, ← hsame]
      exact mem_listed_iff_contentIn.mp hfile
    · rw [lookup_listed, hsame]
      exact mem_listed_iff_contentIn.mp hfile

/-- The paths that a listing of the disk may give: it passes over some. -/
def Lists (sys : FileCalls Text Bytes Raised) (list : Listing Text Bytes)
    (fs : FileSystem Text Bytes) (root : List Text) (paths : List (List Text)) : Prop :=
  ∀ q ∈ list.below fs root, sys.SeesAlways q → q ∈ paths

/-- A listing gives what is at a path, unless it passes over it. -/
theorem Lists.mem {fs : FileSystem Text Bytes} {paths : List (List Text)}
    (h : Lists sys list fs root paths) {all : List (List Text)}
    (hall : ∀ q, (fs.node (root ++ q)).isSome → q ∈ all) {q : List Text} (hq : q ≠ [])
    (hnode : (fs.node (root ++ q)).isSome) (hseen : sys.SeesAlways q) : q ∈ paths :=
  h q (list.complete fs root all hall q hq hnode) hseen

/-- What a listing has at a path that it does not pass over, when there is a directory at the
root. -/
theorem Lists.contentIn_eq {fs : FileSystem Text Bytes} {paths : List (List Text)}
    (h : Lists sys list fs root paths) (hroot : fs.node root = some .dir)
    {all : List (List Text)} (hall : ∀ q, (fs.node (root ++ q)).isSome → q ∈ all)
    {q : List Text} (hseen : sys.SeesAlways q) :
    contentIn fs root paths q = contentAt fs root q := by
  rw [contentIn]
  split_ifs with hmem
  · rfl
  · refine (Option.eq_none_iff_forall_ne_some.mpr fun content hcontent => hmem ?_).symm
    have hnode := (contentAt_eq_some.mp hcontent).1
    refine h.mem hall ?_ (by rw [hnode]; rfl) hseen
    rintro rfl
    rw [List.append_nil, hroot] at hnode
    cases hnode

/-- The files below a root, as `snapshot_files` gives them. -/
theorem snapshotFiles_eq_ok {files : List (List Text × Bytes)}
    (hrun : snapshotFiles sys list root d = (.ok files, d')) :
    d'.files = d.files ∧ ∃ paths, Lists sys list d.files root paths ∧
      files = listed d.files root paths ∧
      ∀ q ∈ paths, ∀ target, d.files.node (root ++ q) ≠ some (.link target) := by
  obtain ⟨paths, d₁, hlist, hrun⟩ := bind_eq_ok_iff.mp hrun
  obtain ⟨hpaths, hsame⟩ := rglob_eq_ok hlist
  obtain ⟨hfs, hfiles, hlinks⟩ := filesOf_eq_ok hrun
  rw [hsame] at hfs hfiles hlinks
  exact ⟨hfs, paths, fun q hq hseen => (hpaths q).mpr ⟨hq, hseen d.calls⟩, hfiles, hlinks⟩

end

end EpsCloud
