import LinkedDocs.Collection.Removal
import LinkedDocs.Proofs.Update.Detaching

namespace LinkedDocs

open Json Update

/-- The array filters that come with the target of a set. -/
def Updater.conditions (updater : Updater) (keys : List Json) : List Json :=
  match updater.filter with
  | some path => [.single path (.oneOf keys)]
  | none => []

/-- The condition that comes with the target of a pull. -/
def Updater.condition (updater : Updater) (keys : List Json) : Json :=
  match updater.filter with
  | some path => .single path (.oneOf keys)
  | none => .oneOf keys

/-- The updates by which delete policies detach documents from keys: they clear the field at the end
of the path, or they pull elements from the arrays at its last wildcard. -/
inductive ForeignKey.DetachesBy (foreignKey : ForeignKey) (keys : List Json) :
    UpdateOperator → Json → String → List Json → Prop
  | clear {operator : UpdateOperator} {argument : Json} (hclears : Clears operator argument)
      (hpolicy : foreignKey.onDelete = if operator.creates then .nullify else .unset)
      (hlast : foreignKey.path.getLast? ≠ some wildcard) :
      DetachesBy foreignKey keys operator argument (Updater.forSet foreignKey.path).target
        ((Updater.forSet foreignKey.path).conditions keys)
  | pull {outer inner : List String} (hpolicy : foreignKey.onDelete = .pull)
      (hsplit : Updater.splitAtLastWildcard? foreignKey.path = some (outer, inner)) :
      DetachesBy foreignKey keys .pull (pullCondition inner keys)
        (joinPath (Updater.openWildcards outer)) []

theorem ForeignKey.detach_eq {foreignKey : ForeignKey} {updater : Updater}
    (hupdater : foreignKey.updater = some updater) (referencing name : String) (filter : Json)
    (keys : List Json) :
    foreignKey.detach referencing name filter keys =
      match foreignKey.onDelete with
      | .pull => .ok (.update referencing filter (.single UpdateOperator.pull.name
          (.single updater.target (updater.condition keys))) [])
      | .unset => .ok (.update referencing filter (.single UpdateOperator.unset.name
          (.single updater.target (.int 1))) (updater.conditions keys))
      | _ => .ok (.update referencing filter (.single UpdateOperator.set.name
          (.single updater.target .null)) (updater.conditions keys)) := by
  obtain ⟨target, path⟩ := updater
  unfold detach
  rw [hupdater]
  cases path <;> cases foreignKey.onDelete <;> rfl

namespace ForeignKey.Compiled

variable {name : String} {foreignKey : ForeignKey} {outer inner : List String}

theorem isValid_of_mem (h : foreignKey.Compiled name) {segment : String}
    (hsegment : segment ∈ foreignKey.path) (hne : segment ≠ wildcard) :
    Identifier.isValid segment := by
  obtain ⟨first, rest, hpath, hfirst, hrest⟩ := h.path_eq
  rw [hpath] at hsegment
  rcases List.mem_cons.1 hsegment with rfl | hmem
  · exact hfirst
  · exact (hrest segment hmem).resolve_left hne

theorem areNames_inner (h : foreignKey.Compiled name)
    (hsplit : Updater.splitAtLastWildcard? foreignKey.path = some (outer, inner)) :
    AreNames inner := by
  obtain ⟨hpath, hwildcard⟩ := Updater.eq_of_splitAtLastWildcard? hsplit
  intro segment hsegment
  refine h.isValid_of_mem ?_ fun heq => hwildcard (heq ▸ hsegment)
  rw [hpath]
  exact List.mem_append_right _ (List.mem_cons_of_mem _ hsegment)

theorem exists_outer (h : foreignKey.Compiled name)
    (hsplit : Updater.splitAtLastWildcard? foreignKey.path = some (outer, inner)) :
    ∃ first rest, outer = first :: rest ∧ Identifier.isValid first ∧
      foreignKey.path.head? = some first := by
  obtain ⟨hpath, -⟩ := Updater.eq_of_splitAtLastWildcard? hsplit
  obtain ⟨first, rest, hfirstPath, hfirst, -⟩ := h.path_eq
  rw [hfirstPath] at hpath
  cases outer with
  | nil => exact absurd (List.cons.inj hpath).1 (Identifier.ne_wildcard hfirst)
  | cons segment others =>
    obtain ⟨rfl, -⟩ := List.cons.inj hpath
    exact ⟨first, others, rfl, hfirst, by rw [hfirstPath]; rfl⟩

theorem dot_notMem_openWildcards (h : foreignKey.Compiled name)
    (hsplit : Updater.splitAtLastWildcard? foreignKey.path = some (outer, inner)) :
    ∀ segment ∈ Updater.openWildcards outer, '.' ∉ segment.toList := by
  obtain ⟨hpath, -⟩ := Updater.eq_of_splitAtLastWildcard? hsplit
  intro segment hsegment
  obtain ⟨before, hbefore, rfl⟩ := List.mem_map.1 hsegment
  by_cases hwildcard : before = wildcard
  · rw [if_pos hwildcard]
    decide
  · rw [if_neg hwildcard]
    refine Identifier.dot_notMem (h.isValid_of_mem ?_ hwildcard)
    rw [hpath]
    exact List.mem_append_left _ hbefore

theorem openWildcards_cons {first : String} (hfirst : Identifier.isValid first)
    (rest : List String) :
    Updater.openWildcards (first :: rest) = first :: Updater.openWildcards rest := by
  rw [Updater.openWildcards, List.map_cons, if_neg (Identifier.ne_wildcard hfirst)]
  rfl

theorem splitPath_forSet (h : foreignKey.Compiled name)
    (hsplit : Updater.splitAtLastWildcard? foreignKey.path = some (outer, inner)) :
    splitPath (joinPath (Updater.openWildcards outer ++ Updater.filteredElement :: inner)) =
      Updater.openWildcards outer ++ Updater.filteredElement :: inner := by
  have hinner := h.areNames_inner hsplit
  refine splitPath_joinPath (List.append_ne_nil_of_right_ne_nil _ (List.cons_ne_nil _ _)) ?_
  refine List.forall_mem_append.2 ⟨h.dot_notMem_openWildcards hsplit, ?_⟩
  exact List.forall_mem_cons.2
    ⟨by decide, fun segment hsegment => Identifier.dot_notMem (hinner segment hsegment)⟩

theorem splitPath_forPull (h : foreignKey.Compiled name)
    (hsplit : Updater.splitAtLastWildcard? foreignKey.path = some (outer, inner)) :
    splitPath (joinPath (Updater.openWildcards outer)) = Updater.openWildcards outer := by
  obtain ⟨first, rest, rfl, hfirst, -⟩ := h.exists_outer hsplit
  exact splitPath_joinPath (by rw [openWildcards_cons hfirst]; exact List.cons_ne_nil _ _)
    (h.dot_notMem_openWildcards hsplit)

theorem inner_ne_nil (hlast : foreignKey.path.getLast? ≠ some wildcard)
    (hsplit : Updater.splitAtLastWildcard? foreignKey.path = some (outer, inner)) : inner ≠ [] := by
  rintro rfl
  exact hlast (by rw [(Updater.eq_of_splitAtLastWildcard? hsplit).1, List.getLast?_concat])

theorem path_ne_nil (h : foreignKey.Compiled name) : foreignKey.path ≠ [] := by
  obtain ⟨first, rest, hpath, -⟩ := h.path_eq
  rw [hpath]
  exact List.cons_ne_nil _ _

theorem areNames_path (h : foreignKey.Compiled name) (hwildcard : wildcard ∉ foreignKey.path) :
    AreNames foreignKey.path :=
  fun _ hsegment => h.isValid_of_mem hsegment fun heq => hwildcard (heq ▸ hsegment)

/-- Where setting or unsetting a foreign key writes: at the names of its path, or behind its last
wildcard, in the elements that hold one of the keys. -/
theorem forSet_cases (h : foreignKey.Compiled name)
    (hlast : foreignKey.path.getLast? ≠ some wildcard) (keys : List Json) :
    (wildcard ∉ foreignKey.path ∧
      splitPath (Updater.forSet foreignKey.path).target = foreignKey.path) ∨
    ∃ outer inner, Updater.splitAtLastWildcard? foreignKey.path = some (outer, inner) ∧
      inner ≠ [] ∧
      splitPath (Updater.forSet foreignKey.path).target =
        Updater.openWildcards outer ++ Updater.filteredElement :: inner ∧
      (Updater.forSet foreignKey.path).conditions keys =
        [.single (joinPath (Updater.filterIdentifier :: inner)) (.oneOf keys)] := by
  unfold Updater.forSet
  cases hsplit : Updater.splitAtLastWildcard? foreignKey.path with
  | none =>
    have hwildcard := Updater.splitAtLastWildcard?_eq_none_iff.1 hsplit
    exact .inl ⟨hwildcard, (h.areNames_path hwildcard).splitPath_joinPath h.path_ne_nil⟩
  | some parts =>
    obtain ⟨outer, inner⟩ := parts
    exact .inr ⟨outer, inner, rfl, inner_ne_nil hlast hsplit, h.splitPath_forSet hsplit, rfl⟩

/-- The operation by which a delete policy updates the documents that match a filter query. -/
theorem exists_detachesBy (h : foreignKey.Compiled name)
    (hpolicy : foreignKey.onDelete ≠ .bypass ∧ foreignKey.onDelete ≠ .reject ∧
      foreignKey.onDelete ≠ .delete) {referencing : String} {filter : Json} {keys : List Json}
    {operation : Operation}
    (hdetach : foreignKey.detach referencing name filter keys = .ok operation) :
    ∃ operator argument target arrayFilters,
      operation = .update referencing filter (.single operator.name (.single target argument))
        arrayFilters ∧ foreignKey.DetachesBy keys operator argument target arrayFilters := by
  obtain ⟨hbypass, hreject, hdelete⟩ := hpolicy
  have hupdater := h.updater_eq
  cases honDelete : foreignKey.onDelete with
  | bypass => exact absurd honDelete hbypass
  | reject => exact absurd honDelete hreject
  | delete => exact absurd honDelete hdelete
  | unset =>
    rw [honDelete] at hupdater
    rw [detach_eq hupdater, honDelete] at hdetach
    cases hdetach
    exact ⟨_, _, _, _, rfl, .clear (.unset _) honDelete (h.getLast?_ne (.inl honDelete))⟩
  | nullify =>
    rw [honDelete] at hupdater
    rw [detach_eq hupdater, honDelete] at hdetach
    cases hdetach
    exact ⟨_, _, _, _, rfl, .clear .set honDelete (h.getLast?_ne (.inr honDelete))⟩
  | pull =>
    cases hsplit : Updater.splitAtLastWildcard? foreignKey.path with
    | none =>
      exact absurd (h.wildcard_mem honDelete) (Updater.splitAtLastWildcard?_eq_none_iff.1 hsplit)
    | some parts =>
      obtain ⟨outer, inner⟩ := parts
      rw [honDelete, updaterFor, Updater.forPull?, hsplit, Option.map_some] at hupdater
      rw [detach_eq hupdater, honDelete] at hdetach
      cases hdetach
      have hcondition : Updater.condition ⟨joinPath (Updater.openWildcards outer),
          if inner.isEmpty then none else some (joinPath inner)⟩ keys = pullCondition inner keys := by
        rw [Updater.condition, pullCondition]
        cases inner <;> rfl
      rw [hcondition]
      exact ⟨_, _, _, _, rfl, .pull honDelete hsplit⟩

end ForeignKey.Compiled

variable [Platform]

/-- What the update of a foreign key does to any document. -/
structure ForeignKey.Detaches (foreignKey : ForeignKey) (keys : List Json)
    (operator : UpdateOperator) (argument : Json) (target : String) (arrayFilters : List Json) :
    Prop where
  erases : Erases operator argument
  head : ∃ first rest, splitPath target = first :: rest ∧ Identifier.isValid first ∧
    foreignKey.path.head? = some first
  avoids : ∀ {value result}, value.namesOnce →
    updateAt arrayFilters operator argument (splitPath target) value = .ok result →
    result.1.Avoids keys foreignKey.path

namespace ForeignKey.Compiled

variable {name : String} {foreignKey : ForeignKey} {outer inner : List String}

theorem detaches_forSet (h : foreignKey.Compiled name)
    (hlast : foreignKey.path.getLast? ≠ some wildcard) {operator : UpdateOperator} {argument : Json}
    (hclears : Clears operator argument) (keys : List Json) :
    foreignKey.Detaches keys operator argument (Updater.forSet foreignKey.path).target
      ((Updater.forSet foreignKey.path).conditions keys) := by
  rcases h.forSet_cases hlast keys with
    ⟨hwildcard, htarget⟩ | ⟨outer, inner, hsplit, hinner, htarget, hconditions⟩
  · obtain ⟨first, rest, hpath, hfirst, -⟩ := h.path_eq
    refine ⟨hclears.erases, ⟨first, rest, ?_, hfirst, by rw [hpath]; rfl⟩, ?_⟩
    · exact htarget.trans hpath
    · intro value result hvalue hupdate
      rw [htarget] at hupdate
      exact avoids_of_cleared hclears hwildcard h.path_ne_nil keys hvalue hupdate
  · obtain ⟨houterInner, -⟩ := Updater.eq_of_splitAtLastWildcard? hsplit
    obtain ⟨first, rest, rfl, hfirst, hhead⟩ := h.exists_outer hsplit
    refine ⟨hclears.erases, ⟨first, Updater.openWildcards rest ++ Updater.filteredElement :: inner,
      ?_, hfirst, hhead⟩, ?_⟩
    · exact htarget.trans (by rw [openWildcards_cons hfirst, List.cons_append])
    · intro value result hvalue hupdate
      rw [htarget, hconditions] at hupdate
      rw [houterInner]
      exact avoids_append (reaches_of_updateAt_openWildcards (List.cons_ne_nil _ _)
        (avoids_of_selected hclears (h.areNames_inner hsplit) hinner) hvalue hupdate)

theorem detaches_forPull (h : foreignKey.Compiled name)
    (hsplit : Updater.splitAtLastWildcard? foreignKey.path = some (outer, inner)) (keys : List Json)
    (arrayFilters : List Json) :
    foreignKey.Detaches keys .pull (pullCondition inner keys)
      (joinPath (Updater.openWildcards outer)) arrayFilters := by
  obtain ⟨houterInner, -⟩ := Updater.eq_of_splitAtLastWildcard? hsplit
  have hinner := h.areNames_inner hsplit
  have htarget := h.splitPath_forPull hsplit
  obtain ⟨first, rest, rfl, hfirst, hhead⟩ := h.exists_outer hsplit
  refine ⟨.pull _, ⟨first, Updater.openWildcards rest, ?_, hfirst, hhead⟩, ?_⟩
  · exact htarget.trans (openWildcards_cons hfirst rest)
  · intro value result hvalue hupdate
    rw [htarget] at hupdate
    rw [houterInner]
    exact avoids_of_pulled hinner (List.cons_ne_nil _ _) hvalue hupdate

theorem detaches (h : foreignKey.Compiled name) {keys : List Json} {operator : UpdateOperator}
    {argument : Json} {target : String} {arrayFilters : List Json}
    (hby : foreignKey.DetachesBy keys operator argument target arrayFilters) :
    foreignKey.Detaches keys operator argument target arrayFilters := by
  cases hby with
  | clear hclears _ hlast => exact h.detaches_forSet hlast hclears keys
  | pull _ hsplit => exact h.detaches_forPull hsplit keys []

/-- What the operation of a delete policy does to each of the documents. -/
theorem exists_detaches (h : foreignKey.Compiled name)
    (hpolicy : foreignKey.onDelete ≠ .bypass ∧ foreignKey.onDelete ≠ .reject ∧
      foreignKey.onDelete ≠ .delete) {referencing : String} {filter : Json} {keys : List Json}
    {operation : Operation}
    (hdetach : foreignKey.detach referencing name filter keys = .ok operation) :
    ∃ operator argument target arrayFilters,
      operation = .update referencing filter (.single operator.name (.single target argument))
        arrayFilters ∧ foreignKey.Detaches keys operator argument target arrayFilters := by
  obtain ⟨operator, argument, target, arrayFilters, rfl, hby⟩ := h.exists_detachesBy hpolicy hdetach
  exact ⟨operator, argument, target, arrayFilters, rfl, h.detaches hby⟩

end ForeignKey.Compiled

end LinkedDocs
