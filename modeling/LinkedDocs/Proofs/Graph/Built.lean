import LinkedDocs.Proofs.Graph.Acceptance

namespace LinkedDocs

namespace Updater

theorem splitAtLastWildcard?_eq_none_iff {path : List String} :
    splitAtLastWildcard? path = none ↔ wildcard ∉ path := by
  induction path with
  | nil => simp [splitAtLastWildcard?]
  | cons segment rest ih =>
    rw [splitAtLastWildcard?]
    cases hrest : splitAtLastWildcard? rest with
    | none =>
      rw [hrest] at ih
      have hnone : wildcard ∉ rest := ih.1 rfl
      by_cases hsegment : segment = wildcard
      · simp [hsegment]
      · simp [hsegment, hnone, Ne.symm hsegment]
    | some parts =>
      rw [hrest] at ih
      have hmem : wildcard ∈ rest := by simpa using ih
      simp [hmem]

/-- A path is split around its last wildcard. -/
theorem eq_of_splitAtLastWildcard? {path outer inner : List String}
    (h : splitAtLastWildcard? path = some (outer, inner)) :
    path = outer ++ wildcard :: inner ∧ wildcard ∉ inner := by
  induction path generalizing outer with
  | nil => cases h
  | cons segment rest ih =>
    rw [splitAtLastWildcard?] at h
    cases hrest : splitAtLastWildcard? rest with
    | none =>
      rw [hrest] at h
      simp only [Option.ite_none_right_eq_some, Option.some.injEq, Prod.mk.injEq] at h
      obtain ⟨rfl, rfl, rfl⟩ := h
      exact ⟨rfl, splitAtLastWildcard?_eq_none_iff.1 hrest⟩
    | some parts =>
      rw [hrest] at h
      cases h
      obtain ⟨hpath, hinner⟩ := ih hrest
      exact ⟨by rw [hpath]; rfl, hinner⟩

end Updater

/-- What a foreign key in a graph satisfies, under its name. -/
structure ForeignKey.Compiled (name : String) (foreignKey : ForeignKey) : Prop where
  path_eq : ∃ first rest, foreignKey.path = first :: rest ∧ Identifier.isValid first ∧
    ∀ segment ∈ rest, segment = wildcard ∨ Identifier.isValid segment
  name_eq : name = pathKey foreignKey.path
  updater_eq : foreignKey.updater = ForeignKey.updaterFor foreignKey.onDelete foreignKey.path
  wildcard_mem : foreignKey.onDelete = .pull → wildcard ∈ foreignKey.path
  getLast?_ne : foreignKey.onDelete = .unset ∨ foreignKey.onDelete = .nullify →
    foreignKey.path.getLast? ≠ some wildcard

namespace ForeignKey

theorem Compiled.ofDeclaration {owner path : String} {declaration : ForeignKeyDeclaration}
    {collection : String} (hpath : Identifier.checkForeignKeyPath path = .ok ())
    (hpolicy : Schema.checkPolicy collection (pathKey (splitPath path)) (splitPath path)
      (declaration.onDelete.getD .bypass) = .ok ()) :
    (ForeignKey.ofDeclaration owner path declaration).Compiled (pathKey (splitPath path)) where
  path_eq := by
    obtain ⟨first, rest, hsplit, hfirst, hrest⟩ :=
      Identifier.isForeignKeyPath_iff.1 (Identifier.checkForeignKeyPath_eq_ok_iff.1 hpath)
    simp only [← Identifier.isValid_iff_wellSpelled] at hfirst hrest
    exact ⟨first, rest, hsplit, hfirst, hrest⟩
  name_eq := rfl
  updater_eq := rfl
  wildcard_mem := (Schema.checkPolicy_eq_ok_iff.1 hpolicy).1
  getLast?_ne := (Schema.checkPolicy_eq_ok_iff.1 hpolicy).2

theorem Compiled.splitPath_name {name : String} {foreignKey : ForeignKey}
    (h : foreignKey.Compiled name) :
    splitPath name = foreignKey.path.filter fun segment => segment ≠ wildcard := by
  obtain ⟨first, rest, hpath, hfirst, hrest⟩ := h.path_eq
  rw [h.name_eq, pathKey, splitPath_joinPath]
  · rw [hpath]
    simp [Identifier.ne_wildcard hfirst]
  · intro segment hsegment
    rw [hpath] at hsegment
    obtain ⟨hmem, hne⟩ := List.mem_filter.1 hsegment
    rcases List.mem_cons.1 hmem with rfl | hmem
    · exact Identifier.dot_notMem hfirst
    · exact Identifier.dot_notMem ((hrest segment hmem).resolve_left (by simpa using hne))

theorem Compiled.isMarked_eq_false {name : String} {foreignKey : ForeignKey}
    (h : foreignKey.Compiled name) : isMarked name = false := by
  obtain ⟨first, rest, hpath, hfirst, hrest⟩ := h.path_eq
  rw [h.name_eq, pathKey, hpath,
    List.filter_cons_of_pos (by simpa using Identifier.ne_wildcard hfirst)]
  exact Identifier.isMarked_joinPath hfirst _

theorem Compiled.exists_updater {name : String} {foreignKey : ForeignKey}
    (h : foreignKey.Compiled name) (hbypass : foreignKey.onDelete ≠ .bypass)
    (hreject : foreignKey.onDelete ≠ .reject) (hdelete : foreignKey.onDelete ≠ .delete) :
    ∃ updater, foreignKey.updater = some updater := by
  rw [h.updater_eq]
  cases hpolicy : foreignKey.onDelete with
  | unset => exact ⟨_, rfl⟩
  | nullify => exact ⟨_, rfl⟩
  | pull =>
    cases hsplit : Updater.splitAtLastWildcard? foreignKey.path with
    | none =>
      exact absurd (h.wildcard_mem hpolicy) (Updater.splitAtLastWildcard?_eq_none_iff.1 hsplit)
    | some parts => exact ⟨_, by rw [updaterFor, Updater.forPull?, hsplit]; rfl⟩
  | bypass => exact absurd hpolicy hbypass
  | reject => exact absurd hpolicy hreject
  | delete => exact absurd hpolicy hdelete

end ForeignKey

namespace DeletePolicy

/-- Whether a delete policy writes to the documents that refer to the deleted ones. -/
def Detaches (policy : DeletePolicy) : Prop :=
  policy = unset ∨ policy = nullify ∨ policy = pull

theorem detaches_iff {policy : DeletePolicy} :
    policy.Detaches ↔ policy ≠ bypass ∧ policy ≠ reject ∧ policy ≠ delete := by
  cases policy <;> simp [Detaches]

end DeletePolicy

/-- A foreign key of a graph has an update target exactly when its delete policy writes to one. -/
theorem ForeignKey.Compiled.isSome_updater_iff {name : String} {foreignKey : ForeignKey}
    (h : foreignKey.Compiled name) :
    foreignKey.updater.isSome ↔ foreignKey.onDelete.Detaches := by
  constructor
  · rw [h.updater_eq]
    cases foreignKey.onDelete <;> simp [updaterFor, DeletePolicy.Detaches]
  · intro hdetaches
    obtain ⟨hbypass, hreject, hdelete⟩ := DeletePolicy.detaches_iff.1 hdetaches
    obtain ⟨updater, hupdater⟩ := h.exists_updater hbypass hreject hdelete
    rw [hupdater, Option.isSome_some]

namespace Schema

/-- Nothing refers to a collection that is neither declared nor a target. -/
theorem referencesTo_eq_empty {schema : Schema} {target : String} (h : target ∉ schema.targets) :
    schema.referencesTo target = .empty := by
  refine NameMap.ext (List.eq_nil_iff_forall_not_mem.2 ?_)
  rintro ⟨referencing, foreignKeys⟩ hmem
  obtain ⟨hget, hnonempty⟩ := NameMap.get?_filter.1 (NameMap.mem_entries_iff.1 hmem)
  obtain ⟨declaration, hdeclaration, rfl⟩ := NameMap.get?_mapValues.1 hget
  have hne : ((declaration.compile referencing).filter fun _ foreignKey =>
      foreignKey.collection == target).entries ≠ [] := by
    simpa [NameMap.isEmpty] using hnonempty
  obtain ⟨⟨name, foreignKey⟩, hentry⟩ := List.exists_mem_of_ne_nil _ hne
  obtain ⟨hforeign, hsame⟩ := NameMap.get?_filter.1 (NameMap.mem_entries_iff.1 hentry)
  refine h (List.mem_flatMap.2 ⟨referencing, NameMap.mem_keys_iff.2 ⟨_, hdeclaration⟩, ?_⟩)
  have hcollection : foreignKey.collection = target := by simpa using hsame
  rw [← hcollection, foreignKeysOf, get?, hdeclaration]
  exact List.mem_map_of_mem (NameMap.mem_values_of_get? hforeign)

end Schema

namespace Graph

variable {schema : Schema} {graph : Graph}

/-- The links of every collection, declared or not, are those of the schema. -/
theorem links_build (hbuilt : build schema = .ok graph) (name : String) :
    graph.links name = schema.linksOf name := by
  obtain ⟨-, rfl⟩ := build_eq_ok_iff.1 hbuilt
  rw [links, get?, Schema.graph, NameMap.get?_ofList_map]
  split
  case isTrue => rfl
  case isFalse hname =>
    simp only [List.mem_append, not_or] at hname
    obtain ⟨hkeys, htargets⟩ := hname
    have hget : schema.get? name = none := by
      by_contra hsome
      exact hkeys (NameMap.mem_keys_iff.2 (Option.ne_none_iff_exists'.1 hsome))
    rw [Schema.linksOf, Schema.referencesTo_eq_empty htargets, Schema.foreignKeysOf, hget]
    rfl

/-- The references to a collection are the foreign keys of all collections whose target it is. -/
theorem mem_references_iff (hbuilt : build schema = .ok graph) {target referencing name : String}
    {foreignKey : ForeignKey} :
    (∃ foreignKeys, (referencing, foreignKeys) ∈ (graph.links target).references.entries ∧
        (name, foreignKey) ∈ foreignKeys.entries) ↔
      (graph.links referencing).foreignKeys.get? name = some foreignKey ∧
        foreignKey.collection = target := by
  simp only [links_build hbuilt, Schema.linksOf, Schema.referencesTo, NameMap.mem_entries_iff,
    NameMap.get?_filter, NameMap.get?_mapValues, Schema.foreignKeysOf, Schema.get?]
  constructor
  · rintro ⟨_, ⟨⟨declaration, hdeclaration, rfl⟩, -⟩, hforeign⟩
    obtain ⟨hget, hsame⟩ := NameMap.get?_filter.1 hforeign
    rw [hdeclaration]
    exact ⟨hget, by simpa using hsame⟩
  · rintro ⟨hget, hcollection⟩
    cases hdeclaration : schema.collections.get? referencing with
    | none =>
      rw [hdeclaration] at hget
      cases hget
    | some declaration =>
      rw [hdeclaration] at hget
      have hforeign : ((declaration.compile referencing).filter fun _ foreignKey =>
          foreignKey.collection == target).get? name = some foreignKey :=
        NameMap.get?_filter.2 ⟨hget, by simp [hcollection]⟩
      refine ⟨_, ⟨⟨declaration, rfl, rfl⟩, ?_⟩, hforeign⟩
      have hne := List.ne_nil_of_mem (NameMap.mem_entries_iff.2 hforeign)
      simpa [NameMap.isEmpty] using hne

/-- The foreign key of a collection under a canonical key. -/
def foreignKey? (graph : Graph) (collection name : String) : Option ForeignKey :=
  (graph.get? collection).bind fun links => links.foreignKeys.get? name

/-- The reference to a collection by a foreign key of another one, under its canonical key. -/
def reference? (graph : Graph) (target referencing name : String) : Option ForeignKey :=
  (graph.get? target).bind fun links =>
    (links.references.get? referencing).bind fun foreignKeys => foreignKeys.get? name

theorem foreignKey?_eq_links (graph : Graph) (collection name : String) :
    graph.foreignKey? collection name = (graph.links collection).foreignKeys.get? name := by
  rw [foreignKey?, links]
  cases graph.get? collection <;> rfl

theorem reference?_eq_links (graph : Graph) (target referencing name : String) :
    graph.reference? target referencing name =
      ((graph.links target).references.get? referencing).bind fun foreignKeys =>
        foreignKeys.get? name := by
  rw [reference?, links]
  cases graph.get? target <;> rfl

/-- The references to a collection are the foreign keys whose target it is. -/
theorem reference?_eq_some_iff (hbuilt : build schema = .ok graph)
    {target referencing name : String} {foreignKey : ForeignKey} :
    graph.reference? target referencing name = some foreignKey ↔
      graph.foreignKey? referencing name = some foreignKey ∧ foreignKey.collection = target := by
  rw [foreignKey?_eq_links, ← mem_references_iff hbuilt, reference?_eq_links]
  simp only [Option.bind_eq_some_iff, NameMap.mem_entries_iff]

theorem isValid_of_mem_key (hbuilt : build schema = .ok graph) (name : String) :
    ∀ segment ∈ splitPath (graph.links name).key, Identifier.isValid segment := by
  rw [links_build hbuilt, Schema.linksOf]
  dsimp only
  cases hkey : (schema.get? name).bind CollectionDeclaration.key with
  | none =>
    rw [Option.getD_none]
    decide
  | some key =>
    obtain ⟨declaration, hget, hdeclared⟩ := Option.bind_eq_some_iff.1 hkey
    have hacceptable := exists_build_iff.1 ⟨graph, hbuilt⟩ _ _ hget
    simp only [Identifier.isValid_iff_wellSpelled]
    exact Identifier.isKeyPath_iff.1 (hacceptable.key key hdeclared)

/-- Every foreign key of a graph is compiled from a declaration that passed the checks. -/
theorem compiled (hbuilt : build schema = .ok graph) {collection name : String}
    {foreignKey : ForeignKey}
    (hget : (graph.links collection).foreignKeys.get? name = some foreignKey) :
    foreignKey.Compiled name := by
  rw [links_build hbuilt, Schema.linksOf] at hget
  simp only [Schema.foreignKeysOf] at hget
  cases hdeclaration : schema.get? collection with
  | none =>
    rw [hdeclaration] at hget
    cases hget
  | some declaration =>
    rw [hdeclaration] at hget
    obtain ⟨⟨path, declared⟩, hentry, heq⟩ := List.mem_map.1 (NameMap.mem_of_get?_ofList hget)
    cases heq
    have hacceptable := exists_build_iff.1 ⟨graph, hbuilt⟩ _ _ hdeclaration
    have hdeclared := hacceptable.foreignKeys path declared (NameMap.mem_entries_iff.1 hentry)
    obtain ⟨hpath, -, hpolicy⟩ :=
      (Schema.acceptable_iff_checks collection (pathKey (splitPath path))).1 hdeclared
    exact .ofDeclaration hpath hpolicy

theorem forall_foreignKeys {holds : String → String → ForeignKey → Prop}
    (h : ∀ entry ∈ graph.collections.entries, ∀ foreign ∈ entry.2.foreignKeys.entries,
      holds entry.1 foreign.1 foreign.2) :
    ∀ referencing name foreignKey,
      (graph.links referencing).foreignKeys.get? name = some foreignKey →
        holds referencing name foreignKey := by
  intro referencing name foreignKey hforeign
  rw [links, get?] at hforeign
  cases hlinks : graph.collections.get? referencing with
  | none =>
    rw [hlinks] at hforeign
    cases hforeign
  | some links =>
    rw [hlinks] at hforeign
    exact h (referencing, links) (NameMap.mem_entries_iff.2 hlinks) (name, foreignKey)
      (NameMap.mem_entries_iff.2 hforeign)

end Graph

end LinkedDocs
