import EpsCloud.Release.Inventory

/-!
# Names in the chart archive

A member of the archive has a name of its maker's choice.  `prepare_snapshot` reads it as a
`PurePosixPath` and takes it only if it is below `deploy/helm/eps` and has nothing in it
that could lead out of there.

* `isName_of_chartPath`: what is taken is a list of names that stay where they are.
* `chartPath_eq_some_iff`: the names that are taken.
-/

namespace EpsCloud

/-! ## Pure paths -/

/-- The root and the parts of a path. -/
structure PurePosixPath where
  root : Text
  parts : List Text
  deriving DecidableEq

/-- `PurePosixPath(name)`: one slash or more than two are a root, and so are exactly two; empty
parts and single dots do not count. -/
def purePosixPath (name : Text) : PurePosixPath where
  root :=
    match name with
    | '/' :: '/' :: '/' :: _ => ['/']
    | '/' :: '/' :: _ => ['/', '/']
    | '/' :: _ => ['/']
    | _ => []
  parts := (name.splitOn '/').filter fun part => part ≠ [] ∧ part ≠ ['.']

/-- `path.is_relative_to(other)`. -/
def PurePosixPath.isRelativeTo (path other : PurePosixPath) : Bool :=
  decide (path.root = other.root) && other.parts.isPrefixOf path.parts

/-- `path.relative_to(other).parts`. -/
def PurePosixPath.relativeTo (path other : PurePosixPath) : List Text :=
  path.parts.drop other.parts.length

/-- `PurePosixPath("deploy/helm/eps")`. -/
def chartRoot : PurePosixPath :=
  ⟨[], ["deploy".toList, "helm".toList, "eps".toList]⟩

example : purePosixPath "deploy/helm//eps/./".toList = chartRoot := by decide

/-! ## Members -/

/-- What the archive says that a member is. -/
inductive MemberKind where
  | directory
  | regular
  | other
  deriving DecidableEq

/-- A member of a tar archive, with what `extractfile` gives for it: nothing, a file that cannot
be read, or the content of a file. -/
structure Member (β : Type) where
  name : Text
  kind : MemberKind
  file : Option (Option β)

/-- Where a member comes in the chart, if its name is safe. -/
def chartPath (name : Text) : Option (List Text) :=
  let path := purePosixPath name
  if path.isRelativeTo chartRoot && path.parts.all (· ≠ ['.', '.']) && name.all (· ≠ '\\') &&
      name.all (· ≠ ':') then
    some (path.relativeTo chartRoot)
  else none

/-! ## What is taken -/

/-- The name of something in a directory, which leads nowhere else. -/
structure IsName (a : Text) : Prop where
  nonempty : a ≠ []
  noDot : a ≠ ['.']
  noDots : a ≠ ['.', '.']
  noSlash : '/' ∉ a

theorem notMem_of_mem_splitOn {c : Char} {s a : Text} (h : a ∈ s.splitOn c) : c ∉ a := by
  induction s generalizing a with
  | nil =>
    rw [List.splitOn_nil, List.mem_singleton] at h
    exact h ▸ List.not_mem_nil
  | cons x s ih =>
    rw [List.splitOn_cons_eq_if_modifyHead] at h
    split_ifs at h with hx
    · rcases List.mem_cons.mp h with rfl | h
      · exact List.not_mem_nil
      · exact ih h
    · cases hsplit : s.splitOn c with
      | nil =>
        rw [hsplit] at h
        cases h
      | cons b l =>
        rw [hsplit] at h ih
        rcases List.mem_cons.mp h with rfl | h
        · have hne : c ≠ x := fun heq => hx (beq_iff_eq.mpr heq.symm)
          exact fun hc => (List.mem_cons.mp hc).elim hne (ih List.mem_cons_self)
        · exact ih (List.mem_cons_of_mem b h)

theorem root_eq_nil_iff {name : Text} : (purePosixPath name).root = [] ↔ name.head? ≠ some '/' := by
  unfold purePosixPath
  dsimp only
  split
  · simp
  · simp
  · simp
  · next hslash =>
    simpa [List.head?_eq_some_iff] using hslash

theorem all_ne_iff {α : Type} [DecidableEq α] {l : List α} {a : α} :
    l.all (· ≠ a) ↔ a ∉ l := by
  simp only [List.all_eq_true, decide_eq_true_iff]
  exact ⟨fun h ha => h a ha rfl, fun h _ hx => ne_of_mem_of_not_mem hx h⟩

/-- **The names that are taken**: relative names of something at or below the chart, without the
characters that separate paths elsewhere. -/
theorem chartPath_eq_some_iff {name : Text} {q : List Text} :
    chartPath name = some q ↔ name.head? ≠ some '/' ∧
      (purePosixPath name).parts = chartRoot.parts ++ q ∧ ['.', '.'] ∉ q ∧
      '\\' ∉ name ∧ ':' ∉ name := by
  unfold chartPath PurePosixPath.isRelativeTo PurePosixPath.relativeTo
  dsimp only
  simp only [Option.ite_none_right_eq_some, Option.some.injEq, Bool.and_eq_true, all_ne_iff,
    decide_eq_true_iff, List.isPrefixOf_iff_prefix]
  change (((((purePosixPath name).root = [] ∧ _) ∧ _) ∧ _) ∧ _) ∧ _ ↔ _
  rw [root_eq_nil_iff]
  constructor
  · rintro ⟨⟨⟨⟨⟨hroot, q', hparts⟩, hdots⟩, hback⟩, hcolon⟩, rfl⟩
    rw [← hparts, List.drop_left]
    refine ⟨hroot, rfl, fun h => hdots ?_, hback, hcolon⟩
    rw [← hparts]
    exact List.mem_append_right _ h
  · rintro ⟨hroot, hparts, hdots, hback, hcolon⟩
    rw [hparts, List.drop_left]
    refine ⟨⟨⟨⟨⟨hroot, List.prefix_append _ _⟩, fun h => ?_⟩, hback⟩, hcolon⟩, rfl⟩
    rcases List.mem_append.mp h with h | h
    · exact absurd h (by decide)
    · exact hdots h

/-- **What is taken is a list of names that stay where they are.** -/
theorem isName_of_chartPath {name : Text} {q : List Text} (h : chartPath name = some q) {a : Text}
    (ha : a ∈ q) : IsName a := by
  obtain ⟨-, hparts, hdots, -⟩ := chartPath_eq_some_iff.mp h
  have hpart : a ∈ (purePosixPath name).parts := hparts ▸ List.mem_append_right _ ha
  obtain ⟨hsplit, hne⟩ := List.mem_filter.mp hpart
  rw [decide_eq_true_iff] at hne
  exact ⟨hne.1, hne.2, fun heq => hdots (heq ▸ ha), notMem_of_mem_splitOn hsplit⟩

end EpsCloud
