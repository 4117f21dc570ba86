import LinkedDocs.Proofs.Projection.Absorb

/-!
Absorption as a cover. Of some paths it keeps the outermost ones, in the order in which they first
occur, and every choice of paths that covers all of them has these. So paths can be absorbed bit by
bit: what is absorbed already and what comes later absorb to the same as all of them at once.
-/

namespace LinkedDocs.Projection

section FirstOccurrences

variable {α : Type} [BEq α] [LawfulBEq α]

theorem eraseDups_of_nodup {items : List α} (h : items.Nodup) : items.eraseDups = items := by
  induction items with
  | nil => rfl
  | cons first rest ih =>
    obtain ⟨hfirst, hrest⟩ := List.nodup_cons.1 h
    have hothers : (rest.filter fun other => !other == first) = rest := by
      refine List.filter_eq_self.2 fun other hother => ?_
      have hne : other ≠ first := fun heq => hfirst (heq ▸ hother)
      simpa using hne
    rw [List.eraseDups_cons, hothers, ih hrest]

theorem eraseDups_filter (keep : α → Bool) (items : List α) :
    (items.filter keep).eraseDups = items.eraseDups.filter keep := by
  -- by recursion on the length: what follows an item is filtered before its duplicates are erased
  cases items with
  | nil => rfl
  | cons first rest =>
    have ih := eraseDups_filter keep (rest.filter fun other => !other == first)
    rw [List.filter_filter] at ih
    rw [List.eraseDups_cons]
    by_cases hfirst : keep first
    · rw [List.filter_cons_of_pos hfirst, List.filter_cons_of_pos hfirst, List.eraseDups_cons,
        List.filter_filter, ← ih]
      simp only [Bool.and_comm]
    · have hkeep : ∀ other, (keep other && !other == first) = keep other := by
        intro other
        by_cases heq : other = first <;> simp [heq, hfirst]
      rw [List.filter_cons_of_neg hfirst, List.filter_cons_of_neg hfirst, ← ih]
      simp only [hkeep]
termination_by items.length
decreasing_by exact Nat.lt_succ_of_le (List.length_filter_le _ _)

theorem eraseDups_eraseDups_append (items others : List α) :
    (items.eraseDups ++ others).eraseDups = (items ++ others).eraseDups := by
  have hremoved : others.removeAll items.eraseDups = others.removeAll items :=
    List.filter_congr fun other _ => by simp [List.mem_eraseDups]
  rw [List.eraseDups_append, List.eraseDups_append, hremoved,
    eraseDups_of_nodup (nodup_eraseDups items)]

theorem eraseDups_append_eraseDups (items others : List α) :
    (items ++ others.eraseDups).eraseDups = (items ++ others).eraseDups := by
  rw [List.eraseDups_append, List.eraseDups_append, List.removeAll, List.removeAll,
    ← eraseDups_filter, eraseDups_of_nodup (nodup_eraseDups _)]

end FirstOccurrences

theorem isBelow_trans {path middle parent : String} (h : isBelow path middle)
    (hmiddle : middle = parent ∨ isBelow middle parent) : isBelow path parent := by
  rcases hmiddle with rfl | hmiddle
  · exact h
  · obtain ⟨rest, rfl⟩ := isBelow_iff.1 hmiddle
    obtain ⟨last, rfl⟩ := isBelow_iff.1 h
    exact isBelow_iff.2 ⟨rest ++ "." ++ last, by simp only [String.append_assoc]⟩

/-- Whether a path is one of some paths or lies below one of them. -/
def IsCovered (kept : List String) (path : String) : Prop :=
  ∃ other ∈ kept, path = other ∨ isBelow path other

theorem isCovered_absorb {paths : List String} {path : String} (h : path ∈ paths) :
    IsCovered (absorb paths) path := by
  obtain ⟨kept, hkept, hparts⟩ := exists_mem_absorb h
  exact ⟨kept, hkept, splitPath_prefix_iff.1 hparts⟩

theorem isOutermost_absorb (paths : List String) :
    isOutermost (absorb paths) = isOutermost paths := by
  funext path
  rw [Bool.eq_iff_iff, isOutermost_iff, isOutermost_iff]
  constructor
  · intro h other hother
    obtain ⟨kept, hkept, hcovered⟩ := isCovered_absorb hother
    exact Bool.eq_false_iff.2 fun hbelow =>
      absurd (isBelow_trans hbelow hcovered) (by simp [h kept hkept])
  · intro h kept hkept
    exact h kept (mem_absorb_iff.1 hkept).1

theorem isOutermost_append (paths others : List String) :
    isOutermost (paths ++ others) =
      fun path => isOutermost paths path && isOutermost others path := by
  funext path
  simp [isOutermost]

/-- A choice of some paths, each once and where it first occurs, that covers all of them. None of
the chosen paths lies below another, and every other choice that covers all has them. -/
structure MinimalCover (paths kept : List String) : Prop where
  nodup : kept.Nodup
  sublist : kept.Sublist paths.eraseDups
  apart : ∀ path ∈ kept, ∀ other ∈ kept, isBelow path other = false
  covers : ∀ path ∈ paths, IsCovered kept path
  least : ∀ cover ⊆ paths, (∀ path ∈ paths, IsCovered cover path) → kept ⊆ cover

theorem minimalCover_absorb (paths : List String) : MinimalCover paths (absorb paths) where
  nodup := nodup_absorb paths
  sublist := by
    rw [absorb_eq_filter, eraseDups_filter]
    exact List.filter_sublist
  apart path hpath other hother :=
    (mem_absorb_iff.1 hpath).2 other (mem_absorb_iff.1 hother).1
  covers _ := isCovered_absorb
  least := by
    intro cover hcover hcovers path hpath
    obtain ⟨hmem, houtermost⟩ := mem_absorb_iff.1 hpath
    obtain ⟨other, hother, rfl | hbelow⟩ := hcovers path hmem
    · exact hother
    · exact absurd hbelow (by simp [houtermost other (hcover hother)])

theorem filter_absorb {paths : List String} {keep : String → Bool}
    (h : ∀ path, keep path → isOutermost paths path) :
    (absorb paths).filter keep = (paths.filter keep).eraseDups := by
  rw [absorb_eq_filter, ← eraseDups_filter, List.filter_filter]
  congr 1
  exact List.filter_congr fun path _ => by
    rw [Bool.eq_iff_iff, Bool.and_eq_true]
    exact ⟨And.left, fun hkeep => ⟨hkeep, h path hkeep⟩⟩

theorem absorb_absorb_append (paths others : List String) :
    absorb (absorb paths ++ others) = absorb (paths ++ others) := by
  rw [absorb_eq_filter, absorb_eq_filter (paths ++ others), isOutermost_append, isOutermost_absorb,
    ← isOutermost_append, List.filter_append, List.filter_append, filter_absorb,
    eraseDups_eraseDups_append]
  simp +contextual [isOutermost_append]

theorem absorb_append_absorb (paths others : List String) :
    absorb (others ++ absorb paths) = absorb (others ++ paths) := by
  rw [absorb_eq_filter, absorb_eq_filter (others ++ paths), isOutermost_append, isOutermost_absorb,
    ← isOutermost_append, List.filter_append, List.filter_append, filter_absorb,
    eraseDups_append_eraseDups]
  simp +contextual [isOutermost_append]

/-- Absorption leaves the least cover of some paths. Which paths it leaves depends on nothing but
which ones are given, and absorbing some of them beforehand changes nothing. -/
theorem minimalCover_absorb_and_absorb_append (paths : List String) :
    MinimalCover paths (absorb paths) ∧
      (∀ others : List String, (∀ path, path ∈ others ↔ path ∈ paths) →
        ∀ path, path ∈ absorb others ↔ path ∈ absorb paths) ∧
      absorb (absorb paths) = absorb paths ∧
      ∀ others : List String, absorb (absorb paths ++ others) = absorb (paths ++ others) ∧
        absorb (others ++ absorb paths) = absorb (others ++ paths) := by
  refine ⟨minimalCover_absorb paths, fun others hsame path => ?_, ?_,
    fun others => ⟨absorb_absorb_append paths others, absorb_append_absorb paths others⟩⟩
  · simp only [mem_absorb_iff, hsame]
  · simpa using absorb_absorb_append paths []

/-- Paths of which some lie below others, some are repeated, and some only begin alike. -/
def orderPaths : List String :=
  ["items.name", "items", "name", "items.qty", "names", "name"]

theorem absorb_orderPaths :
    absorb orderPaths = ["items", "name", "names"] ∧
      IsCovered ["items", "name", "names"] "items.qty" ∧
      (["name", "items.qty", "items", "names"] ⊆ orderPaths ∧
        (∀ path ∈ orderPaths, IsCovered ["name", "items.qty", "items", "names"] path) ∧
        ["items", "name", "names"] ⊆ ["name", "items.qty", "items", "names"]) ∧
      (∀ path, path ∈ orderPaths.reverse ↔ path ∈ orderPaths) ∧
      (∀ path, path ∈ absorb orderPaths.reverse ↔ path ∈ ["items", "name", "names"]) ∧
      absorb (["items", "name", "names"] ++ ["names.first", "item"]) =
        absorb (orderPaths ++ ["names.first", "item"]) := by
  have hleft : absorb orderPaths = ["items", "name", "names"] := by decide
  have hsubset : ["name", "items.qty", "items", "names"] ⊆ orderPaths := by decide
  have hcovers : ∀ path ∈ orderPaths,
      IsCovered ["name", "items.qty", "items", "names"] path := by
    unfold IsCovered
    decide
  have hsame : ∀ path, path ∈ orderPaths.reverse ↔ path ∈ orderPaths := by simp
  have hcover := minimalCover_absorb_and_absorb_append orderPaths
  rw [hleft] at hcover
  obtain ⟨hminimal, hset, -, hbits⟩ := hcover
  exact ⟨hleft, hminimal.covers "items.qty" (by decide),
    ⟨hsubset, hcovers, hminimal.least _ hsubset hcovers⟩, hsame, hset _ hsame, (hbits _).1⟩

end LinkedDocs.Projection
