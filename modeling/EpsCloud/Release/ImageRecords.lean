import EpsCloud.Release.PackageUrls

/-!
# Image records

`record_image_digest.py` writes down which digest a push of an image was given, and
`validate_record` takes such a record for one image of one release run only.  What it gives
is the reference of that image by a digest.

* `publishedReference_eq_some_iff`: the one reference to a repository among some digests.
* `validateRecord_eq_some_iff`: what a record that is taken says.
-/

namespace EpsCloud

variable {ι : Type}

/-! ## The digest of a repository -/

/-- A digit of `[0-9a-f]`. -/
def isHexDigit (c : Char) : Bool := c.isDigit || ('a' ≤ c && c ≤ 'f')

/-- `re.fullmatch(r"[0-9a-f]{n}", s)`. -/
def isHex (n : ℕ) (s : Text) : Bool := s.length == n && s.all isHexDigit

/-- What stands between a repository and the digits of its digest. -/
def digestMark : Text := "@sha256:".toList

/-- `s.rsplit(c, 1)[0]`. -/
def withoutLast (c : Char) (s : Text) : Text := if c ∈ s then beforeLast c s else s

/-- The text is the repository with a digest. -/
def isReference (repository s : Text) : Bool :=
  (repository ++ digestMark).isPrefixOf s &&
    isHex 64 (s.drop (repository ++ digestMark).length)

/-- `published_reference`; `none` where it raises. -/
def publishedReference (remoteImage : Text) (repoDigests : List Text) : Option Text :=
  let repository := withoutLast ':' remoteImage
  match repoDigests.filter fun ref => (repository ++ ['@']).isPrefixOf ref with
  | [ref] => if isReference repository ref then some ref else none
  | _ => none

/-! ## Records -/

/-- `f"ghcr.io/{repository}/{name}"`. -/
def imageRepository (repository name : Text) : Text :=
  "ghcr.io/".toList ++ repository ++ '/' :: name

/-- `validate_record`; `none` where it raises. -/
def validateRecord (record : Doc ι String Atom) (repository name commit runId runAttempt : Text) :
    Option Text :=
  let tag := imageRepository repository name ++ ':' :: commit
  if docView record "commit" = some (.scalar (.text commit)) ∧
      docView record "tag" = some (.scalar (.text tag)) ∧
      docView record "run_id" = some (.scalar (.text runId)) ∧
      docView record "run_attempt" = some (.scalar (.text runAttempt)) then
    match docView record "image" with
    | some (.scalar (.text image)) => publishedReference tag [image]
    | _ => none
  else none

/-! ## What is taken -/

theorem isReference_iff {repository s : Text} :
    isReference repository s ↔
      ∃ digits, isHex 64 digits ∧ s = repository ++ digestMark ++ digits := by
  rw [isReference, Bool.and_eq_true, List.isPrefixOf_iff_prefix]
  constructor
  · rintro ⟨⟨digits, rfl⟩, hhex⟩
    rw [List.drop_left] at hhex
    exact ⟨digits, hhex, rfl⟩
  · rintro ⟨digits, hhex, rfl⟩
    rw [List.drop_left]
    exact ⟨List.prefix_append _ _, hhex⟩

theorem withoutLast_append {c : Char} {a b : Text} (hb : c ∉ b) :
    withoutLast c (a ++ c :: b) = a := by
  rw [withoutLast, if_pos (List.mem_append_right a List.mem_cons_self), beforeLast_append hb]

/-- **The one reference to a repository**: no other text starts like a reference to it. -/
theorem publishedReference_eq_some_iff {remoteImage ref : Text} {repoDigests : List Text} :
    publishedReference remoteImage repoDigests = some ref ↔
      repoDigests.filter (fun r => (withoutLast ':' remoteImage ++ ['@']).isPrefixOf r) = [ref] ∧
        ∃ digits, isHex 64 digits ∧
          ref = withoutLast ':' remoteImage ++ digestMark ++ digits := by
  unfold publishedReference
  dsimp only
  split
  · next r hfilter =>
    rw [Option.ite_none_right_eq_some, isReference_iff, Option.some.injEq, hfilter,
      List.singleton_inj]
    constructor
    · rintro ⟨h, rfl⟩
      exact ⟨rfl, h⟩
    · rintro ⟨rfl, h⟩
      exact ⟨h, rfl⟩
  · next hfilter =>
    refine ⟨fun h => absurd h (Option.some_ne_none ref).symm, fun h => ?_⟩
    exact absurd h.1 (hfilter ref)

theorem digestMark_eq : digestMark = '@' :: "sha256:".toList := by decide

/-- **What a record that is taken says**: it is about this image of this release run, and gives
the reference of this image by a digest. -/
theorem validateRecord_eq_some_iff {record : Doc ι String Atom}
    {repository name commit runId runAttempt ref : Text} (hcommit : ':' ∉ commit) :
    validateRecord record repository name commit runId runAttempt = some ref ↔
      docView record "commit" = some (.scalar (.text commit)) ∧
      docView record "tag" =
        some (.scalar (.text (imageRepository repository name ++ ':' :: commit))) ∧
      docView record "run_id" = some (.scalar (.text runId)) ∧
      docView record "run_attempt" = some (.scalar (.text runAttempt)) ∧
      docView record "image" = some (.scalar (.text ref)) ∧
      ∃ digits, isHex 64 digits ∧
        ref = imageRepository repository name ++ digestMark ++ digits := by
  unfold validateRecord
  dsimp only
  rw [Option.ite_none_right_eq_some]
  constructor
  · rintro ⟨⟨h₁, h₂, h₃, h₄⟩, h⟩
    split at h
    · next image himage =>
      rw [publishedReference_eq_some_iff, withoutLast_append hcommit] at h
      obtain ⟨hfilter, hform⟩ := h
      have hmem : ref ∈ [image] := List.mem_of_mem_filter (hfilter ▸ List.mem_singleton_self ref)
      rw [List.mem_singleton.mp hmem] at hform ⊢
      exact ⟨h₁, h₂, h₃, h₄, himage, hform⟩
    · cases h
  · rintro ⟨h₁, h₂, h₃, h₄, himage, digits, hdigits, hform⟩
    refine ⟨⟨h₁, h₂, h₃, h₄⟩, ?_⟩
    rw [himage]
    dsimp only
    rw [publishedReference_eq_some_iff, withoutLast_append hcommit]
    refine ⟨List.filter_eq_self.mpr fun r hr => ?_, digits, hdigits, hform⟩
    rw [List.mem_singleton.mp hr, List.isPrefixOf_iff_prefix, hform, digestMark_eq]
    exact ⟨"sha256:".toList ++ digits, by simp⟩

end EpsCloud
