import LinkedDocs.Collection.Removal
import LinkedDocs.Proofs.Json.SameValue
import LinkedDocs.Proofs.NameMap
import Mathlib.Data.List.Nodup
import Mathlib.Data.List.Perm.Subperm

namespace LinkedDocs

namespace Json

/-- Two values that do not have the same value. -/
def Differ (left right : Json) : Prop :=
  left.sameValue right = false

theorem countP_eq_one {values : List Json} (hdiffer : values.Pairwise Differ) {value : Json}
    (hholds : holds values value) : values.countP (fun other => other.sameValue value) = 1 := by
  induction values with
  | nil => cases hholds
  | cons first rest ih =>
    obtain ⟨hfirst, hrest⟩ := List.pairwise_cons.1 hdiffer
    by_cases hsame : first.sameValue value
    · have hnone : ∀ other ∈ rest, ¬other.sameValue value := by
        intro other hother hvalue
        have hfirstOther := sameValue_trans hsame (sameValue_symm hvalue)
        exact absurd hfirstOther (by simpa [Differ] using hfirst other hother)
      rw [List.countP_cons, if_pos hsame, List.countP_eq_zero.2 hnone]
    · have hheld : holds rest value := by simpa [holds, hsame] using hholds
      rw [List.countP_cons, if_neg hsame, ih hrest hheld]

theorem nodup_map_plain {values : List Json} (h : values.Pairwise Differ) :
    (values.map plain).Nodup := by
  refine List.pairwise_map.2 (h.imp fun {first second} hdiffer heq => ?_)
  rw [Differ, sameValue_iff.2 heq] at hdiffer
  cases hdiffer

theorem subperm_map_plain {values others : List Json} (hdiffer : values.Pairwise Differ)
    (hheld : ∀ value ∈ values, holds others value) :
    (values.map plain).Subperm (others.map plain) := by
  refine (nodup_map_plain hdiffer).subperm fun value hvalue => ?_
  obtain ⟨origin, horigin, rfl⟩ := List.mem_map.1 hvalue
  obtain ⟨other, hother, hsame⟩ := holds_iff.1 (hheld origin horigin)
  rw [← sameValue_iff.1 hsame]
  exact List.mem_map_of_mem hother

/-- Different values among some others, no fewer than these, are all of them. -/
theorem holds_of_length_le {values others : List Json} (hdiffer : values.Pairwise Differ)
    (hheld : ∀ value ∈ values, holds others value) (hlength : others.length ≤ values.length) :
    ∀ other ∈ others, holds values other := by
  have hperm : (values.map plain).Perm (others.map plain) :=
    (subperm_map_plain hdiffer hheld).perm_of_length_le (by simpa using hlength)
  intro other hother
  obtain ⟨value, hvalue, heq⟩ := List.mem_map.1 (hperm.mem_iff.2 (List.mem_map_of_mem hother))
  exact holds_iff.2 ⟨value, hvalue, sameValue_iff.2 heq⟩

theorem length_le_of_holds {values others : List Json} (hdiffer : values.Pairwise Differ)
    (hheld : ∀ value ∈ values, holds others value) : values.length ≤ others.length := by
  simpa using (subperm_map_plain hdiffer hheld).length_le

/-- Different values among other different ones are all of them exactly if they are as many. -/
theorem length_eq_iff_forall_holds {values others : List Json} (hvalues : values.Pairwise Differ)
    (hothers : others.Pairwise Differ) (hheld : ∀ value ∈ values, holds others value) :
    values.length = others.length ↔ ∀ other ∈ others, holds values other :=
  ⟨fun hlength => holds_of_length_le hvalues hheld (Nat.le_of_eq hlength.symm),
    fun hall => Nat.le_antisymm (length_le_of_holds hvalues hheld) (length_le_of_holds hothers hall)⟩

end Json

open Json

namespace DeletedKeys

theorem freshKeys_cons (seen rest : List Json) (key : Json) :
    freshKeys seen (key :: rest) =
      if holds seen key then freshKeys seen rest
      else key :: freshKeys (seen ++ [key]) rest := rfl

theorem freshKeys_subset (seen keys : List Json) : freshKeys seen keys ⊆ keys := by
  induction keys generalizing seen with
  | nil => exact List.Subset.refl _
  | cons key rest ih =>
    rw [freshKeys_cons]
    split
    · exact List.subset_cons_of_subset _ (ih seen)
    · exact List.cons_subset_cons _ (ih _)

theorem holds_append_freshKeys {seen keys : List Json} {key : Json} (h : key ∈ keys) :
    holds (seen ++ freshKeys seen keys) key := by
  induction keys generalizing seen with
  | nil => cases h
  | cons first rest ih =>
    rw [freshKeys_cons]
    rcases List.mem_cons.1 h with rfl | hrest
    · split
      case isTrue hseen => exact holds_mono (List.subset_append_left _ _) hseen
      case isFalse => exact holds_of_mem (List.mem_append_right _ List.mem_cons_self)
    · split
      · exact ih hrest
      · have hheld : holds (seen ++ [first] ++ freshKeys (seen ++ [first]) rest) key := ih hrest
        rwa [List.append_assoc] at hheld

theorem holds_eq_false_of_mem_freshKeys {seen keys : List Json} {key : Json}
    (h : key ∈ freshKeys seen keys) : holds seen key = false := by
  induction keys generalizing seen with
  | nil => cases h
  | cons first rest ih =>
    rw [freshKeys_cons] at h
    split at h
    case isTrue => exact ih h
    case isFalse hfirst =>
      rcases List.mem_cons.1 h with rfl | hrest
      · exact Bool.eq_false_iff.2 hfirst
      · have hboth := ih hrest
        simp only [holds, List.any_append, Bool.or_eq_false_iff] at hboth
        exact hboth.1

theorem pairwise_append_freshKeys {seen : List Json} (h : seen.Pairwise Differ) (keys : List Json) :
    (seen ++ freshKeys seen keys).Pairwise Differ := by
  induction keys generalizing seen with
  | nil => simpa [freshKeys] using h
  | cons first rest ih =>
    rw [freshKeys_cons]
    split
    case isTrue => exact ih h
    case isFalse hfirst =>
      have hseen : ∀ other ∈ seen, Differ other first := by
        intro other hother
        simp only [holds, List.any_eq_true, not_exists, not_and] at hfirst
        exact Bool.eq_false_iff.2 (hfirst other hother)
      have hboth : (seen ++ [first]).Pairwise Differ :=
        List.pairwise_append.2 ⟨h, List.pairwise_singleton _ _, by simpa using hseen⟩
      have hall := ih hboth
      rwa [List.append_assoc] at hall

theorem get_mark (deleted : DeletedKeys) (collection : String) (keys : List Json) (name : String) :
    (deleted.mark collection keys).2.get name =
      deleted.get name ++ if name = collection then (deleted.mark collection keys).1 else [] := by
  simp only [mark, get, NameMap.getD, NameMap.get?_insert]
  split
  case isTrue hname =>
    subst hname
    rfl
  case isFalse => rw [List.append_nil]

end DeletedKeys

/-- The keys of all documents in a store, with their collections. -/
def storedPairs (graph : Graph) (store : Store) : List (String × Json) :=
  store.collections.entries.flatMap fun entry =>
    (entry.2.filterMap (graph.collection entry.1).keyOf?).map fun key => (entry.1, key)

/-- The number of keys in a store that are not marked. -/
def unmarked (graph : Graph) (store : Store) (deleted : DeletedKeys) : Nat :=
  (storedPairs graph store).countP fun pair => !holds (deleted.get pair.1) pair.2

theorem mem_storedPairs {graph : Graph} {store : Store} {name : String} {document key : Json}
    (hmem : document ∈ store.documents name) (hkey : (graph.collection name).keyOf? document = some key) :
    (name, key) ∈ storedPairs graph store := by
  rw [Store.documents, NameMap.getD] at hmem
  cases hget : store.collections.get? name with
  | none =>
    rw [hget] at hmem
    cases hmem
  | some documents =>
    rw [hget] at hmem
    refine List.mem_flatMap.2 ⟨(name, documents), NameMap.mem_entries_iff.2 hget, ?_⟩
    exact List.mem_map_of_mem (List.mem_filterMap.2 ⟨document, hmem, hkey⟩)

theorem exists_of_mem_storedPairs {graph : Graph} {store : Store} {name : String} {key : Json}
    (h : (name, key) ∈ storedPairs graph store) :
    ∃ document ∈ store.documents name, (graph.collection name).keyOf? document = some key := by
  obtain ⟨entry, hentry, hpair⟩ := List.mem_flatMap.1 h
  obtain ⟨found, hfound, heq⟩ := List.mem_map.1 hpair
  obtain ⟨document, hdocument, hkey⟩ := List.mem_filterMap.1 hfound
  cases heq
  refine ⟨document, ?_, hkey⟩
  rwa [Store.documents, NameMap.getD, NameMap.mem_entries_iff.1 hentry]

theorem length_storedPairs_le (graph : Graph) (store : Store) :
    (storedPairs graph store).length ≤ store.collections.values.flatten.length := by
  rw [storedPairs, NameMap.values]
  induction store.collections.entries with
  | nil => exact Nat.le_refl _
  | cons entry rest ih =>
    have hfirst := List.length_filterMap_le (graph.collection entry.1).keyOf? entry.2
    simp only [List.flatMap_cons, List.length_append, List.length_map, List.map_cons,
      List.flatten_cons]
    omega

theorem unmarked_mono {graph : Graph} {store : Store} {before after : DeletedKeys}
    (h : ∀ name, before.get name ⊆ after.get name) :
    unmarked graph store after ≤ unmarked graph store before := by
  refine List.countP_mono_left fun pair _ hafter => ?_
  simp only [Bool.not_eq_true', ← Bool.not_eq_true] at hafter ⊢
  exact fun hbefore => hafter (holds_mono (h pair.1) hbefore)

theorem countP_lt {α : Type} {items : List α} {few many : α → Bool}
    (hmono : ∀ item ∈ items, few item → many item) {item : α} (hmem : item ∈ items)
    (hfew : few item = false) (hmany : many item = true) : items.countP few < items.countP many := by
  induction items with
  | nil => cases hmem
  | cons first rest ih =>
    obtain ⟨hfirst, hrest⟩ := List.forall_mem_cons.1 hmono
    have hle : rest.countP few ≤ rest.countP many := List.countP_mono_left hrest
    rw [List.countP_cons, List.countP_cons]
    rcases List.mem_cons.1 hmem with rfl | htail
    · simp only [hfew, hmany]
      simp
      omega
    · have hlt := ih hrest htail
      have hone : (if few first then 1 else 0) ≤ if many first then 1 else 0 := by
        by_cases hfewFirst : few first
        · simp [hfewFirst, hfirst hfewFirst]
        · simp [hfewFirst]
      omega

theorem unmarked_mark_lt {graph : Graph} {store : Store} {deleted : DeletedKeys}
    {collection : String} {keys : List Json} {key : Json}
    (hstored : (collection, key) ∈ storedPairs graph store)
    (hfresh : key ∈ (deleted.mark collection keys).1) :
    unmarked graph store (deleted.mark collection keys).2 < unmarked graph store deleted := by
  refine countP_lt (fun pair _ hafter => ?_) hstored ?_ ?_
  · simp only [Bool.not_eq_true', ← Bool.not_eq_true] at hafter ⊢
    refine fun hbefore => hafter (holds_mono ?_ hbefore)
    rw [DeletedKeys.get_mark]
    exact List.subset_append_left _ _
  · have hheld : holds ((deleted.mark collection keys).2.get collection) key := by
      rw [DeletedKeys.get_mark, if_pos rfl]
      exact holds_of_mem (List.mem_append_right _ hfresh)
    simp [hheld]
  · have hnew : holds (deleted.get collection) key = false :=
      DeletedKeys.holds_eq_false_of_mem_freshKeys hfresh
    simp [hnew]

end LinkedDocs
