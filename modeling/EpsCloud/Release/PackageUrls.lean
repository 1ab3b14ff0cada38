import EpsCloud.Release.DerivedInventory

/-!
# Package URLs of Debian packages

The package URL of a patched component gets another version: what stands before the last
`@` and the qualifiers from the first `?` on are kept.

* `repinned_of_isVersioned`: only the version part is changed.
* `debian_of_repinned`: what is made is the package URL of a Debian package.
-/

namespace EpsCloud

variable {quote : Text → Text}

/-! ## Cutting texts -/

section

variable {c : Char} {a b s : Text}

theorem ne_of_notMem (h : c ∉ a) : ∀ x ∈ a, decide (x ≠ c) = true :=
  fun _ hx => decide_eq_true (ne_of_mem_of_not_mem hx h)

theorem beforeFirst_append (ha : c ∉ a) (hb : b = [] ∨ b.head? = some c) :
    beforeFirst c (a ++ b) = a := by
  rw [beforeFirst, List.takeWhile_append_of_pos (ne_of_notMem ha)]
  rcases hb with rfl | hb
  · rw [List.takeWhile_nil, List.append_nil]
  · obtain ⟨b, rfl⟩ := List.head?_eq_some_iff.mp hb
    rw [List.takeWhile_cons_of_neg (by simp), List.append_nil]

theorem afterFirst_append (ha : c ∉ a) : afterFirst c (a ++ c :: b) = b := by
  rw [afterFirst, List.dropWhile_append_of_pos (ne_of_notMem ha),
    List.dropWhile_cons_of_neg (by simp), List.tail_cons]

theorem beforeLast_append (hb : c ∉ b) : beforeLast c (a ++ c :: b) = a := by
  have hb' : c ∉ b.reverse := fun h => hb (List.mem_reverse.mp h)
  rw [beforeLast, List.reverse_append, List.reverse_cons, List.append_assoc,
    List.singleton_append, afterFirst_append hb', List.reverse_reverse]

/-- A start without the character stays when a text is cut at its first one. -/
theorem start_beforeFirst (ha : c ∉ a) (h : a <+: s) : a <+: beforeFirst c s := by
  obtain ⟨b, rfl⟩ := h
  rw [beforeFirst, List.takeWhile_append_of_pos (ne_of_notMem ha)]
  exact List.prefix_append a _

/-- A start without the character stays when a text is cut at its last one. -/
theorem start_beforeLast (ha : c ∉ a) (h : a <+: s) (hc : c ∈ s) : a <+: beforeLast c s := by
  obtain ⟨b, rfl⟩ := h
  have hb : c ∈ b := (List.mem_append.mp hc).resolve_left ha
  have hne : b.reverse.dropWhile (· ≠ c) ≠ [] := fun hnil => by
    simpa using List.dropWhile_eq_nil_iff.mp hnil c (List.mem_reverse.mpr hb)
  rw [beforeLast, afterFirst, List.reverse_append, List.dropWhile_append,
    if_neg (by simpa using hne), List.tail_append_of_ne_nil hne, List.reverse_append,
    List.reverse_reverse]
  exact List.prefix_append a _

end

/-! ## Versions -/

/-- The package URL of a Debian package with a version, and with qualifiers or without. -/
structure IsVersioned (name version qualifiers purl : Text) : Prop where
  eq : purl = debianScheme ++ name ++ '@' :: version ++ qualifiers
  name : '?' ∉ name
  version : '?' ∉ version ∧ '@' ∉ version
  qualifiers : qualifiers = [] ∨ qualifiers.head? = some '?'

theorem at_notMem_debianScheme : '@' ∉ debianScheme := by decide

theorem question_notMem_debianScheme : '?' ∉ debianScheme := by decide

/-- **Only the version part is changed.** -/
theorem repinned_of_isVersioned {name version qualifiers purl : Text}
    (h : IsVersioned name version qualifiers purl) (pinned : Text) :
    repinned quote purl pinned =
      some (debianScheme ++ name ++ '@' :: quote pinned ++ qualifiers) := by
  have hbase : '?' ∉ debianScheme ++ name ++ '@' :: version := by
    simp only [List.mem_append, List.mem_cons, not_or]
    exact ⟨⟨question_notMem_debianScheme, h.name⟩, by decide, h.version.1⟩
  rw [repinned, h.eq, beforeFirst_append hbase h.qualifiers,
    if_pos (List.mem_append_right _ List.mem_cons_self), beforeLast_append h.version.2]
  rcases h.qualifiers with hq | hq
  · rw [hq, List.append_nil, if_neg hbase, List.append_nil]
  · obtain ⟨q, rfl⟩ := List.head?_eq_some_iff.mp hq
    rw [if_pos (List.mem_append_right _ List.mem_cons_self), afterFirst_append hbase]

/-- **What is made of the package URL of a Debian package is one again.** -/
theorem debian_of_repinned {purl pinned new : Text} (hdebian : debianScheme <+: purl)
    (hnew : repinned quote purl pinned = some new) : debianScheme <+: new := by
  obtain ⟨hat, hnew⟩ := Option.ite_none_right_eq_some.mp hnew
  rw [← Option.some.inj hnew]
  have hbase := start_beforeFirst question_notMem_debianScheme hdebian
  have hkept := start_beforeLast at_notMem_debianScheme hbase hat
  exact (hkept.trans (List.prefix_append _ _)).trans (List.prefix_append _ _)

end EpsCloud
