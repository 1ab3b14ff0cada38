import EpsCloud.Library.Objects

/-!
# The derived inventory

`verify_argocd_image.py` keeps the complete inventory of the donor image and changes what
the patch changes.  `derived_inventory` copies the predicate of the donor's attestation,
restores scoped npm names in place, sets the versions of the pinned Debian packages in
place, and then rebuilds the document with the package URLs of these components replaced.

The attestation is a document in memory, as `json.loads` makes it.  A text is the list of
its characters; `quote` and `unquote` stand for the two functions of `urllib.parse`.

* `derivedInventory`: the copied and rewritten predicate, or nothing where the source raises.
-/

namespace EpsCloud

open Doc (Head Step)

abbrev Text := List Char

/-- A scalar of a JSON document; a number is kept as it is written. -/
inductive Atom where
  | null
  | bool (value : Bool)
  | number (literal : String)
  | text (s : Text)
  deriving DecidableEq

/-! ## Texts -/

/-- `s.partition(c)[0]`, and `s.split(c, 1)[0]`. -/
def beforeFirst (c : Char) (s : Text) : Text := s.takeWhile (· ≠ c)

/-- `s.partition(c)[2]`. -/
def afterFirst (c : Char) (s : Text) : Text := (s.dropWhile (· ≠ c)).tail

/-- `s.rpartition(c)[0]`, and `s.rsplit(c, 1)[0]` where the text has a `c`. -/
def beforeLast (c : Char) (s : Text) : Text := (afterFirst c s.reverse).reverse

/-- `s.rpartition(c)[2]`. -/
def afterLast (c : Char) (s : Text) : Text := (beforeFirst c s.reverse).reverse

/-! ## Mappings -/

/-- What a mapping has at its keys, without what is below it. -/
abbrev View := String → Option (Head Atom)

/-- `value.get("purl", "")`, which the source uses as a text. -/
def purlOf (view : View) : Option Text :=
  match view "purl" with
  | none => some []
  | some (.scalar (.text purl)) => some purl
  | some _ => none

section

variable (quote unquote : Text → Text)

/-! ## Scoped npm names -/

/-- How the package URL of an npm package starts. -/
def npmScheme : Text := "pkg:npm/".toList

/-- The scoped identity in an npm package URL. -/
def npmIdentity (purl : Text) : Option Text :=
  if npmScheme <+: purl then
    let identity := unquote ((beforeFirst '#' (beforeFirst '?' purl)).drop 8)
    if identity.head? = some '@' then some identity else none
  else none

/-- The scope and the name of a scoped identity that agrees with the mapping. -/
def scopedNames (view : View) (identity : Text) : Option (Text × Text) :=
  let package := beforeLast '@' identity
  let version := afterLast '@' identity
  let scope := beforeFirst '/' package
  let name := afterFirst '/' package
  if '@' ∈ identity ∧ '/' ∈ package ∧ name ≠ [] ∧ '/' ∉ name ∧
      view "version" = some (.scalar (.text version)) ∧
      (view "name" = some (.scalar (.text name)) ∨ view "name" = some (.scalar (.text package))) ∧
      (view "group" = none ∨ view "group" = some (.scalar .null) ∨
        view "group" = some (.scalar (.text [])) ∨ view "group" = some (.scalar (.text scope)))
  then some (scope, name) else none

/-- What `normalize_npm` sets in a mapping, if anything; `none` where it raises. -/
def restoredNames (view : View) : Option (Option (Text × Text)) :=
  (purlOf view).bind fun purl =>
    match npmIdentity unquote purl with
    | none => some none
    | some identity => (scopedNames view identity).map some

/-- Set the group and the name of an object. -/
def setNames (h : Heap String Atom) (o : Address String) : Option (Text × Text) → Heap String Atom
  | none => h
  | some (scope, name) =>
    (h.setKey o "group" (.scalar (.text scope))).setKey o "name" (.scalar (.text name))

/-- `normalize_npm`, with a bound on the calls that are open. -/
def normalizeNpm : ℕ → Heap String Atom → Slot String Atom → Option (Heap String Atom)
  | 0, _, _ => none
  | depth + 1, h, .ref o =>
    (restoredNames unquote (h.view o)).bind fun names =>
      (setNames h o names).forItems (fun h _ child => normalizeNpm depth h child) o
  | depth + 1, h, .list n item =>
    (List.range n).foldlM (fun h i => normalizeNpm depth h (item i)) h
  | _ + 1, h, .scalar _ => some h

/-! ## Pinned packages -/

/-- How the package URL of a Debian package starts. -/
def debianScheme : Text := "pkg:deb/debian/".toList

/-- What the function uses of the reviewed pins. -/
structure Pins where
  platformDigest : Text
  /-- The pinned version of each package. -/
  packages : Dict Text Text

/-- The name, the pinned version and the package URL of a component that is patched; `none`
where looking at it raises. -/
def pinnedAs (pins : Pins) (view : View) : Option (Option (Text × Text × Text)) :=
  match view "name" with
  | some (.list _) => none
  | some .dict => none
  | some (.scalar (.text name)) =>
    match pins.packages.get? name with
    | none => some none
    | some version => (purlOf view).map fun purl =>
      if debianScheme <+: purl then some (name, version, purl) else none
  | _ => some none

/-- The package URL with another version, if it has one. -/
def repinned (purl version : Text) : Option Text :=
  let base := beforeFirst '?' purl
  if '@' ∈ base then
    some (beforeLast '@' base ++ '@' :: quote version ++
      if '?' ∈ purl then '?' :: afterFirst '?' purl else [])
  else none

/-- Where the pass over the components is. -/
structure PinState where
  heap : Heap String Atom
  references : Dict Text Text
  found : List Text

/-- One turn of the loop over the components. -/
def pinComponent (pins : Pins) (s : PinState) : Slot String Atom → Option PinState
  | .ref o =>
    match pinnedAs pins (s.heap.view o) with
    | none => none
    | some none => some s
    | some (some (name, version, purl)) =>
      if name ∈ s.found then none
      else (repinned quote purl version).map fun new =>
        { heap := s.heap.setKey o "version" (.scalar (.text version))
          references := s.references.set purl new
          found := s.found ++ [name] }
  | .scalar _ => none
  | .list _ _ => none

/-- The values that a loop over the components visits; a key or a character has no `get`. -/
def componentSlots (h : Heap String Atom) : Slot String Atom → Option (List (Slot String Atom))
  | .list n item => some ((List.range n).map item)
  | .ref o => if (h.get o).keys = [] then some [] else none
  | .scalar (.text s) => if s = [] then some [] else none
  | .scalar _ => none

/-! ## The document -/

/-- What `replace` makes of a scalar. -/
def replaceAtom (references : Dict Text Text) : Atom → Atom
  | .text s => .text ((references.get? s).getD s)
  | s => s

/-- `replace`, with a bound on the calls that are open. -/
def replace (references : Dict Text Text) (h : Heap String Atom) :
    ℕ → Slot String Atom → Doc Unit String Atom
  | 0, _ => .scalar .null
  | _ + 1, .scalar s => .scalar (replaceAtom references s)
  | depth + 1, .list n item => .list n fun i => replace references h depth (item i)
  | depth + 1, .ref o => .dict () (h.get o).keys (h.get o).nodup fun key =>
    match (h.get o).get? key with
    | some child => replace references h depth child
    | none => .scalar .null

/-- The bound on the calls that are open is enough for the value. -/
def fits (h : Heap String Atom) : ℕ → Slot String Atom → Bool
  | 0, _ => false
  | _ + 1, .scalar _ => true
  | depth + 1, .list n item => (List.range n).all fun i => fits h depth (item i)
  | depth + 1, .ref o => (h.get o).entries.all fun e => fits h depth e.2

/-- The donor's statement is about the reviewed platform digest. -/
def matchesDigest (h : Heap String Atom) (statement : Dict String (Slot String Atom))
    (pins : Pins) : Bool :=
  decide ((statement.get? "predicateType").map Slot.head =
      some (.scalar (.text "https://cyclonedx.org/bom/v1.6".toList))) &&
    match statement.get? "subject" with
    | some (.list 1 item) =>
      match h.step (item 0) (.key "digest") with
      | some (.ref digest) =>
        decide ((h.get digest).keys = ["sha256"] ∧
          h.view digest "sha256" = some (.scalar (.text pins.platformDigest)))
      | _ => false
    | _ => false

/-- `derived_inventory`, with a bound on the calls that are open: the memory that it leaves and
the inventory, or `none` where it raises. -/
def derivedInventory (limit : ℕ) (h : Heap String Atom) (attestation : Slot String Atom)
    (pins : Pins) : Option (Heap String Atom × Doc Unit String Atom) :=
  (h.dict? attestation).bind fun statement =>
    if matchesDigest h statement pins then
      (statement.get? "predicate").bind fun predicate =>
        let copied := h.copy predicate
        (normalizeNpm unquote limit copied.1 copied.2).bind fun normal =>
          ((normal.step copied.2 (.key "components")).bind
            (componentSlots normal)).bind fun slots =>
            (slots.foldlM (pinComponent quote pins) ⟨normal, Dict.empty, []⟩).bind fun s =>
              if (∀ name ∈ pins.packages.keys, name ∈ s.found) ∧ fits s.heap limit copied.2 then
                some (s.heap, replace s.references s.heap limit copied.2)
              else none
    else none

end

end EpsCloud
