import LinkedDocs.Proofs.Path
import Mathlib.Data.List.Nodup

namespace LinkedDocs.Projection

theorem nodup_eraseDups {α : Type} [BEq α] [LawfulBEq α] (items : List α) :
    items.eraseDups.Nodup := by
  cases items with
  | nil => exact List.nodup_nil
  | cons first rest =>
    rw [List.eraseDups_cons, List.nodup_cons]
    refine ⟨fun hmem => ?_, nodup_eraseDups _⟩
    simpa using (List.mem_filter.1 (List.mem_eraseDups.1 hmem)).2
termination_by items.length
decreasing_by exact Nat.lt_succ_of_le (List.length_filter_le _ _)

/-- Whether a path lies below none of some paths. -/
def isOutermost (paths : List String) (path : String) : Bool :=
  !paths.any (isBelow path)

theorem isOutermost_iff {paths : List String} {path : String} :
    isOutermost paths path ↔ ∀ other ∈ paths, isBelow path other = false := by
  simp [isOutermost]

theorem absorbInto_eq (all kept paths : List String) :
    absorbInto all kept paths =
      kept ++ (paths.filter fun path => isOutermost all path && !kept.contains path).eraseDups := by
  induction paths generalizing kept with
  | nil => simp [absorbInto]
  | cons first rest ih =>
    rw [absorbInto]
    by_cases hkept : isOutermost all first && !kept.contains first
    · have hnew : ¬(all.any (isBelow first) || kept.contains first) := by
        simpa [isOutermost] using hkept
      have hrest : ∀ path, (isOutermost all path && !(kept ++ [first]).contains path) =
          (!path == first && (isOutermost all path && !kept.contains path)) := by
        intro path
        by_cases heq : path = first <;> simp [heq]
      rw [if_neg hnew, ih, List.filter_cons, if_pos hkept, List.eraseDups_cons, List.filter_filter,
        List.append_assoc, List.singleton_append]
      simp only [hrest]
    · have hdropped : all.any (isBelow first) || kept.contains first := by
        simpa [isOutermost, or_iff_not_imp_left] using hkept
      rw [if_pos hdropped, ih, List.filter_cons, if_neg hkept]

/-- Absorption keeps the first occurrences of the outermost paths. -/
theorem absorb_eq_filter (paths : List String) :
    absorb paths = (paths.filter (isOutermost paths)).eraseDups := by
  simp [absorb, absorbInto_eq]

theorem mem_absorb_iff {paths : List String} {path : String} :
    path ∈ absorb paths ↔ path ∈ paths ∧ ∀ other ∈ paths, isBelow path other = false := by
  rw [absorb_eq_filter, List.mem_eraseDups, List.mem_filter, isOutermost_iff]

theorem nodup_absorb (paths : List String) : (absorb paths).Nodup := by
  rw [absorb_eq_filter]
  exact nodup_eraseDups _

theorem length_lt_of_isBelow {path parent : String} (h : isBelow path parent) :
    parent.length < path.length := by
  obtain ⟨rest, rfl⟩ := isBelow_iff.1 h
  simp only [String.length_append]
  have : ".".length = 1 := rfl
  omega

/-- On the way to every path there is one that absorption keeps. -/
theorem exists_mem_absorb {paths : List String} {path : String} (h : path ∈ paths) :
    ∃ kept ∈ absorb paths, splitPath kept <+: splitPath path := by
  by_cases hbelow : ∃ other ∈ paths, isBelow path other
  · obtain ⟨other, hother, hpath⟩ := hbelow
    have hlength := length_lt_of_isBelow hpath
    obtain ⟨kept, hkept, hparts⟩ := exists_mem_absorb hother
    exact ⟨kept, hkept, hparts.trans (splitPath_prefix_iff.2 (.inr hpath))⟩
  · refine ⟨path, mem_absorb_iff.2 ⟨h, fun other hother => ?_⟩, List.prefix_rfl⟩
    exact Bool.eq_false_iff.2 fun hpath => hbelow ⟨other, hother, hpath⟩
termination_by path.length

/-- Two lists of segments of which neither leads into the other. -/
def Apart (path other : List String) : Prop :=
  ¬path <+: other ∧ ¬other <+: path

theorem apart_absorb (paths : List String) :
    ((absorb paths).map splitPath).Pairwise Apart := by
  rw [List.pairwise_map]
  refine (nodup_absorb paths).pairwise_of_forall_ne fun path hpath other hother hne => ?_
  obtain ⟨hmem, hpathKept⟩ := mem_absorb_iff.1 hpath
  obtain ⟨hotherMem, hotherKept⟩ := mem_absorb_iff.1 hother
  constructor
  · intro hparts
    rcases splitPath_prefix_iff.1 hparts with heq | hbelow
    · exact hne heq.symm
    · exact absurd hbelow (by simp [hotherKept path hmem])
  · intro hparts
    rcases splitPath_prefix_iff.1 hparts with heq | hbelow
    · exact hne heq
    · exact absurd hbelow (by simp [hpathKept other hotherMem])

end LinkedDocs.Projection
