import EpsCloud.Library.FileCalls
import EpsCloud.Library.JsonText
import EpsCloud.Release.ArchiveNames
import EpsCloud.Release.ImageRecords

/-!
# The release snapshot

`prepare_snapshot` builds a local chart snapshot for one commit: it takes two image records
of this release run and the chart that `git archive` gives, builds the snapshot in a private
directory beside the output, and renames the complete directory to the output.

The records come parsed, the archive comes as the members that `tarfile` yields, and `yaml`
is what the package does with the values of the chart; a path is given with its links
resolved, the last name of the output excepted.

* `loads_releaseJson`: `release.json` is read back as what it says.
* `prepareSnapshot`: the program, over a disk whose calls may meet faults.
-/

namespace EpsCloud

open Script

abbrev Bytes := List UInt8

/-- `text.encode("utf-8")`. -/
def utf8 (s : Text) : Bytes := s.flatMap String.utf8EncodeChar

/-- What `prepare_snapshot` raises; `elsewhere` is raised by a function that it calls. -/
inductive Raised where
  | os (e : Errno)
  | value (message : String)
  | fileExists (message : String)
  | elsewhere
  deriving DecidableEq

/-- What the package `yaml` does: the mapping that is loaded, if it is one, and the text that it
is dumped as; a key of a mapping, and a mapping of some keys to texts. -/
structure Yaml (κ α : Type) where
  load : Bytes → Option (Dict κ α)
  dump : Dict κ α → Option Text
  key : String → κ
  mapping : List (String × Text) → α

/-! ## Texts -/

/-- A key of the release. -/
def jsonKey (key : String) : List JsonText.Code := JsonText.codes key.toList

/-- What `release.json` says. -/
def releaseTree (commit runId runAttempt web worker : Text) : JsonText.Tree :=
  .object [(jsonKey "commit", .text (JsonText.codes commit)),
    (jsonKey "run_id", .text (JsonText.codes runId)),
    (jsonKey "run_attempt", .text (JsonText.codes runAttempt)),
    (jsonKey "images", .object [(jsonKey "web", .text (JsonText.codes web)),
      (jsonKey "worker", .text (JsonText.codes worker))]),
    (jsonKey "deployment_ready", .bool false)]

/-- `json.dumps` of the release, with an indent of 2, and the last newline. -/
def releaseJson (commit runId runAttempt web worker : Text) : Text :=
  JsonText.dumps (JsonText.indented 2) 0 (releaseTree commit runId runAttempt web worker) ++ ['\n']

/-- **The release is read back from what is written.** -/
theorem loads_releaseJson (commit runId runAttempt web worker : Text) :
    JsonText.loads (releaseJson commit runId runAttempt web worker) =
      some (releaseTree commit runId runAttempt web worker) := by
  rw [releaseJson, JsonText.loads_dumps _ _ (List.forall_mem_singleton.mpr rfl)]
  simp only [releaseTree, jsonKey, JsonText.Tree.join, JsonText.joinMembers, JsonText.join_codes]

/-- The image section of the values. -/
def imageSection (repository commit web worker : Text) : List (String × Text) :=
  [("registry", "ghcr.io/".toList ++ repository), ("tag", commit),
    ("webDigest", afterFirst '@' web), ("workerDigest", afterFirst '@' worker)]

def webName : Text := "web".toList

def workerName : Text := "worker".toList

def snapshotName : Text := "snapshot".toList

def chartName : Text := "chart".toList

def valuesName : Text := "values-production.yaml".toList

def releaseName : Text := "release.json".toList

/-! ## The program -/

section

variable (sys : FileCalls Text Bytes Raised)

/-- One turn of the loop over the members; `none` where `tarfile` cannot read on. -/
def extractMember (chart : List Text) :
    Option (Member Bytes) → Script (Disk Text Bytes) Raised Unit
  | none => raise .elsewhere
  | some member =>
    match member.kind with
    | .directory => pure ()
    | .other => raise (.value "Unsafe chart archive member")
    | .regular => do
      let path ← orRaise (.value "Unsafe chart archive member") (chartPath member.name)
      let content ← orRaise (.value "Missing chart archive content") member.file
      let target := chart ++ path
      sys.mkdirs true target.dropLast.length target.dropLast
      let bytes ← orRaise .elsewhere content
      sys.write target bytes

variable {κ α : Type} [DecidableEq κ] (yaml : Yaml κ α)

/-- Build the snapshot in a private directory. -/
def buildSnapshot (repository commit runId runAttempt web worker : Text)
    (archive : List (Option (Member Bytes))) (temporary : List Text) :
    Script (Disk Text Bytes) Raised Unit := do
  let staging := temporary ++ [snapshotName]
  let chart := staging ++ [chartName]
  sys.mkdirs false chart.length chart
  archive.forM (extractMember sys chart)
  let valuesPath := chart ++ [valuesName]
  let content ← sys.read valuesPath
  let values ← orRaise .elsewhere (yaml.load content)
  let changed := values.set (yaml.key "image")
    (yaml.mapping (imageSection repository commit web worker))
  let dumped ← orRaise .elsewhere (yaml.dump changed)
  sys.write valuesPath (utf8 dumped)
  sys.write (staging ++ [releaseName]) (utf8 (releaseJson commit runId runAttempt web worker))

/-- What runs in the private directory: build, then publish the complete directory. -/
def publishSnapshot (repository commit runId runAttempt web worker : Text)
    (archive : List (Option (Member Bytes))) (output temporary : List Text) :
    Script (Disk Text Bytes) Raised Unit := do
  buildSnapshot sys yaml repository commit runId runAttempt web worker archive temporary
  sys.renameDir (temporary ++ [snapshotName]) output

/-- `prepare_snapshot`.  The output is `name` in the directory `parent`, the records are given by
the name of their image, and `candidates` are the names that `tempfile` tries; a value is `none`
where reading it raises. -/
def prepareSnapshot (records : Text → Option (Doc Unit String Atom)) (parent : List Text)
    (name repository commit runId runAttempt : Text)
    (archive : Option (List (Option (Member Bytes)))) (candidates : List Text) :
    Script (Disk Text Bytes) Raised Unit := do
  check (.value "Expected a full source commit") (isHex 40 commit)
  let present ← sys.pathExists 40 (parent ++ [name])
  check (.fileExists "Snapshot destination already exists") !present
  let image := fun image => orRaise .elsewhere ((records image).bind fun record =>
    validateRecord record repository image commit runId runAttempt)
  let web ← image webName
  let worker ← image workerName
  let members ← orRaise .elsewhere archive
  sys.withTemporary parent (candidates.map ("eps-release-".toList ++ ·))
    (publishSnapshot sys yaml repository commit runId runAttempt web worker members
      (parent ++ [name]))

end

end EpsCloud
