import Mathlib

/-!
# File systems

A file system has a directory, a file or a link at some of its paths, and whatever is at a
path is in a directory.  A path is the list of its names from the root.  What a call does
depends on what is at its path and at the directory that it is in; a call that the file
system refuses changes nothing.

* `node_eq_none_of_append`: where nothing is, nothing is below.
* `dir_of_start`: what is on the way to a directory is a directory.
* `mkdir_eq_ok_iff`, `write_eq_ok_iff`, `renameDir_eq_ok_iff`: when a call succeeds, and what
  is at every path after it.
* `Listing`: what walks a directory.
-/

/-- What is at a path. -/
inductive Node (ν β : Type) where
  | dir
  | file (content : β)
  | link (target : List ν)
  deriving DecidableEq

/-- Why a call is refused. -/
inductive Errno where
  | exists
  | notFound
  | notDir
  | isDir
  | invalid
  | loop
  | refused
  deriving DecidableEq

/-- What is at each path; whatever is there is in a directory. -/
@[ext]
structure FileSystem (ν β : Type) where
  node : List ν → Option (Node ν β)
  parent : ∀ p a, (node (p ++ [a])).isSome → node p = some .dir

namespace FileSystem

variable {ν β : Type} {fs fs' : FileSystem ν β} {p q : List ν}

/-! ## Below a path -/

/-- Where no directory is, nothing is below. -/
theorem node_append_eq_none (h : fs.node p ≠ some .dir) {q : List ν} (hq : q ≠ []) :
    fs.node (p ++ q) = none := by
  induction q using List.reverseRecOn with
  | nil => exact absurd rfl hq
  | append_singleton q a ih =>
    by_contra hsome
    rw [← List.append_assoc] at hsome
    have hdir := fs.parent (p ++ q) a (Option.isSome_iff_ne_none.mpr hsome)
    rcases eq_or_ne q [] with rfl | hne
    · exact h (by rwa [List.append_nil] at hdir)
    · rw [ih hne] at hdir
      cases hdir

/-- **Where nothing is, nothing is below.** -/
theorem node_eq_none_of_append (h : fs.node p = none) (q : List ν) : fs.node (p ++ q) = none := by
  rcases eq_or_ne q [] with rfl | hq
  · rwa [List.append_nil]
  · exact node_append_eq_none (by rw [h]; exact (Option.some_ne_none _).symm) hq

/-- What is at a path is in directories. -/
theorem node_eq_dir_of_append (hq : q ≠ []) (h : (fs.node (p ++ q)).isSome) :
    fs.node p = some .dir := by
  by_contra hne
  rw [node_append_eq_none hne hq] at h
  cases h

/-- What is on the way to a directory is a directory. -/
theorem dir_of_start (h : fs.node q = some .dir) (hp : p <+: q) : fs.node p = some .dir := by
  obtain ⟨r, rfl⟩ := hp
  rcases eq_or_ne r [] with rfl | hr
  · rwa [List.append_nil] at h
  · exact node_eq_dir_of_append hr (by rw [h]; rfl)

def isDir (fs : FileSystem ν β) (p : List ν) : Bool :=
  match fs.node p with
  | some .dir => true
  | _ => false

theorem isDir_iff : fs.isDir p ↔ fs.node p = some .dir := by
  unfold isDir
  split
  · next h => simp [h]
  · next h => simpa using h

/-- Why nothing is found at a path. -/
def missing (fs : FileSystem ν β) (p : List ν) : Errno :=
  if p.inits.any fun q => (fs.node q).isSome && !fs.isDir q then .notDir else .notFound

/-- What a path leads to through links, of which `limit` are followed at most, exists. -/
def leadsTo (fs : FileSystem ν β) : ℕ → List ν → Bool
  | 0, _ => false
  | limit + 1, p =>
    match fs.node p with
    | none => false
    | some (.link target) => fs.leadsTo limit target
    | some _ => true

variable [DecidableEq ν]

/-! ## Changes -/

/-- Put something into a directory, where no directory is. -/
def put (fs : FileSystem ν β) (p : List ν) (n : Node ν β) (hdir : fs.isDir p.dropLast)
    (hfree : fs.node p ≠ some .dir) : FileSystem ν β where
  node := Function.update fs.node p (some n)
  parent q a hq := by
    have hne : q ≠ p := by
      rintro rfl
      rw [Function.update_of_ne (by simp), node_append_eq_none hfree (List.cons_ne_nil a [])] at hq
      cases hq
    rw [Function.update_of_ne hne]
    rcases eq_or_ne (q ++ [a]) p with rfl | hne'
    · rwa [List.dropLast_concat, isDir_iff] at hdir
    · rw [Function.update_of_ne hne'] at hq
      exact fs.parent q a hq

/-- Remove what is at a path, with everything below. -/
def removeTree (fs : FileSystem ν β) (p : List ν) : FileSystem ν β where
  node q := if p <+: q then none else fs.node q
  parent q a hq := by
    split_ifs at hq with h
    · cases hq
    · rw [if_neg fun hp => h (hp.trans (List.prefix_append q [a]))]
      exact fs.parent q a hq

/-- What is at a path, with everything below, moved to another path. -/
def move (fs : FileSystem ν β) (src dst : List ν) (hout : ¬ src <+: dst)
    (hdir : fs.isDir dst.dropLast) : FileSystem ν β where
  node q :=
    if dst <+: q then fs.node (src ++ q.drop dst.length)
    else if src <+: q then none else fs.node q
  parent q a hq := by
    by_cases hdst : dst <+: q
    · obtain ⟨r, rfl⟩ := hdst
      rw [if_pos (List.prefix_append dst r), List.drop_left]
      rw [List.append_assoc, if_pos (List.prefix_append dst _), List.drop_left,
        ← List.append_assoc] at hq
      exact fs.parent _ a hq
    · rw [if_neg hdst]
      by_cases heq : dst = q ++ [a]
      · -- The directory that the tree is moved into.
        rw [heq, List.dropLast_concat, isDir_iff] at hdir
        rw [if_neg fun hp => hout (heq ▸ hp.trans (List.prefix_append q [a])), hdir]
      · have hdst' : ¬ dst <+: q ++ [a] := fun hp =>
          (List.prefix_concat_iff.mp hp).elim heq hdst
        rw [if_neg hdst'] at hq
        split_ifs at hq with hsrc'
        · cases hq
        · rw [if_neg fun hp => hsrc' (hp.trans (List.prefix_append q [a]))]
          exact fs.parent q a hq

/-! ## Calls -/

/-- Make a directory. -/
def mkdir (fs : FileSystem ν β) (p : List ν) : Except Errno (FileSystem ν β) :=
  if hdir : fs.isDir p.dropLast then
    if hfree : fs.node p = none then
      .ok (fs.put p .dir hdir (hfree ▸ (Option.some_ne_none _).symm))
    else .error .exists
  else .error (fs.missing p)

/-- Open a file for writing, cut it to nothing, and write; a link is not followed. -/
def write (fs : FileSystem ν β) (p : List ν) (content : β) : Except Errno (FileSystem ν β) :=
  if hfree : fs.isDir p then .error .isDir
  else if hdir : fs.isDir p.dropLast then
    match fs.node p with
    | some (.link _) => .error .loop
    | _ => .ok (fs.put p (.file content) hdir fun h => hfree (isDir_iff.mpr h))
  else .error (fs.missing p)

/-- Read a file; a link is not followed. -/
def read (fs : FileSystem ν β) (p : List ν) : Except Errno β :=
  match fs.node p with
  | some (.file content) => .ok content
  | some .dir => .error .isDir
  | some (.link _) => .error .loop
  | none => .error (fs.missing p)

/-- Rename a directory.  What is at the new path is not replaced, not even an empty directory. -/
def renameDir (fs : FileSystem ν β) (src dst : List ν) : Except Errno (FileSystem ν β) :=
  if fs.isDir src then
    if hout : src <+: dst then .error .invalid
    else if hdir : fs.isDir dst.dropLast then
      if fs.node dst = none then .ok (fs.move src dst hout hdir)
      else if fs.isDir dst then .error .exists else .error .notDir
    else .error (fs.missing dst)
  else .error (fs.missing src)

/-! ## What a call leaves -/

omit [DecidableEq ν] in
theorem start_iff (p q : List ν) : q <+: p ↔ q = p ∨ q <+: p.dropLast := by
  rcases List.eq_nil_or_concat p with rfl | ⟨p, a, rfl⟩
  · rw [List.dropLast_nil, List.prefix_nil, or_self]
  · rw [List.concat_eq_append, List.dropLast_concat, List.prefix_concat_iff]

/-- What is put below a path is not seen when the path is removed. -/
theorem removeTree_of_update {t : List ν} {n : Option (Node ν β)}
    (hnode : fs'.node = Function.update fs.node p n) (ht : t <+: p) :
    fs'.removeTree t = fs.removeTree t := by
  ext q : 2
  change (if t <+: q then none else fs'.node q) = if t <+: q then none else fs.node q
  split_ifs with hq
  · rfl
  · have hne : q ≠ p := by
      rintro rfl
      exact hq ht
    rw [hnode, Function.update_of_ne hne]

/-- Removing what is not there changes nothing. -/
theorem removeTree_of_none {t : List ν} (h : fs.node t = none) : fs.removeTree t = fs := by
  ext q : 2
  change (if t <+: q then none else fs.node q) = fs.node q
  split_ifs with hq
  · obtain ⟨r, rfl⟩ := hq
    exact (node_eq_none_of_append h r).symm
  · rfl

/-- What is removed below a path is not seen when the path is removed. -/
theorem removeTree_append (fs : FileSystem ν β) (p q : List ν) :
    (fs.removeTree (p ++ q)).removeTree p = fs.removeTree p := by
  ext r : 2
  change (if p <+: r then none else if p ++ q <+: r then none else fs.node r) =
    if p <+: r then none else fs.node r
  split_ifs with hp hq
  · rfl
  · exact absurd ((List.prefix_append p q).trans hq) hp
  · rfl

theorem node_removeTree_append (fs : FileSystem ν β) (p : List ν) {q : List ν} (hq : q ≠ []) :
    (fs.removeTree (p ++ q)).node p = fs.node p :=
  if_neg fun h => hq (List.append_right_eq_self.mp
    (h.eq_of_length_le (by rw [List.length_append]; exact Nat.le_add_right _ _)))

theorem mkdir_eq_ok_iff :
    fs.mkdir p = .ok fs' ↔ fs.node p.dropLast = some .dir ∧ fs.node p = none ∧
      fs'.node = Function.update fs.node p (some .dir) := by
  unfold mkdir
  rw [← isDir_iff]
  split_ifs with hdir hfree
  · rw [Except.ok.injEq, FileSystem.ext_iff, eq_comm]
    simp [hdir, hfree, put]
  · simp [hfree]
  · simp [hdir]

/-- A directory whose parent is there is not missing its parent. -/
theorem mkdir_ne_notFound (h : fs.node p.dropLast = some .dir) : fs.mkdir p ≠ .error .notFound := by
  unfold mkdir
  rw [dif_pos (isDir_iff.mpr h)]
  split_ifs <;> simp

theorem write_eq_ok_iff {content : β} :
    fs.write p content = .ok fs' ↔ fs.node p.dropLast = some .dir ∧
      (fs.node p = none ∨ ∃ c, fs.node p = some (.file c)) ∧
      fs'.node = Function.update fs.node p (some (.file content)) := by
  unfold write
  rw [← isDir_iff]
  split_ifs with hfree hdir
  · rw [isDir_iff] at hfree
    simp [hfree]
  · rw [isDir_iff] at hfree
    cases hnode : fs.node p with
    | none =>
      simp only [Except.ok.injEq, FileSystem.ext_iff, put, hdir, true_and, true_or]
      exact eq_comm
    | some n =>
      cases n with
      | dir => exact absurd hnode hfree
      | file c =>
        simp only [Except.ok.injEq, FileSystem.ext_iff, put, hdir, true_and, Option.some.injEq,
          Node.file.injEq, exists_eq', or_true]
        exact eq_comm
      | link target => simp
  · simp [hdir]

omit [DecidableEq ν] in
theorem read_eq_ok_iff {content : β} :
    fs.read p = .ok content ↔ fs.node p = some (.file content) := by
  unfold read
  split <;> simp_all

theorem renameDir_eq_ok_iff {src dst : List ν} :
    fs.renameDir src dst = .ok fs' ↔ fs.node src = some .dir ∧ ¬ src <+: dst ∧
      fs.node dst.dropLast = some .dir ∧ fs.node dst = none ∧
      fs'.node = fun q => if dst <+: q then fs.node (src ++ q.drop dst.length)
        else if src <+: q then none else fs.node q := by
  unfold renameDir
  rw [← isDir_iff, ← isDir_iff]
  split_ifs with hsrc hout hdir hfree
  · simp [hout]
  · rw [Except.ok.injEq, FileSystem.ext_iff, eq_comm]
    simp [hsrc, hout, hdir, hfree, move]
  · simp [hfree]
  · simp [hfree]
  · simp [hdir]
  · simp [hsrc]

end FileSystem

/-! ## Listings -/

/-- What lists the paths below a directory when every directory can be opened, in any order: where
they are finitely many, it lists them all.  It may list others too, at which nothing is. -/
structure Listing (ν β : Type) where
  below : FileSystem ν β → List ν → List (List ν)
  complete : ∀ (fs : FileSystem ν β) p (paths : List (List ν)),
    (∀ q, (fs.node (p ++ q)).isSome → q ∈ paths) →
      ∀ q, q ≠ [] → (fs.node (p ++ q)).isSome → q ∈ below fs p

open Classical in
/-- There is such a listing. -/
noncomputable def Listing.choose (ν β : Type) : Listing ν β where
  below fs p :=
    if h : ∃ paths : List (List ν), ∀ q, (fs.node (p ++ q)).isSome → q ∈ paths then h.choose else []
  complete fs p paths h q _ hq := by
    have hex : ∃ paths : List (List ν), ∀ q, (fs.node (p ++ q)).isSome → q ∈ paths := ⟨paths, h⟩
    rw [dif_pos hex]
    exact hex.choose_spec q hq
