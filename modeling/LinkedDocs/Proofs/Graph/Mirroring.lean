import LinkedDocs.Proofs.Graph.Built
import Mathlib.Data.Set.Function

/-!
The references of a graph mirror its foreign keys. A graph can be made by entering the declared
foreign keys one after the other, each with the collection that holds it and with its target, where
collections come into the graph as they are met. Entering a foreign key keeps the two sides in step
as long as its canonical key is new for its collection; so the graph made in this way is determined
by the declarations, and it is the graph of the schema.
-/

namespace LinkedDocs

/-- A foreign key with the collection that holds it and its canonical key. -/
structure DeclaredLink where
  owner : String
  name : String
  foreignKey : ForeignKey

/-- The place of a link: no other one has it. -/
def DeclaredLink.place (link : DeclaredLink) : String × String := (link.owner, link.name)

def CollectionDeclaration.declaredLinks (declaration : CollectionDeclaration) (owner : String) :
    List DeclaredLink :=
  declaration.foreignKeys.entries.map fun (path, declared) =>
    ⟨owner, pathKey (splitPath path), .ofDeclaration owner path declared⟩

def Schema.declaredLinks (schema : Schema) : List DeclaredLink :=
  schema.collections.entries.flatMap fun (name, declaration) => declaration.declaredLinks name

namespace CollectionLinks

def addForeignKey (links : CollectionLinks) (link : DeclaredLink) : CollectionLinks :=
  { links with foreignKeys := links.foreignKeys.insert link.name link.foreignKey }

def addReference (links : CollectionLinks) (link : DeclaredLink) : CollectionLinks :=
  let referencing := links.references.getD link.owner .empty
  { links with
    references := links.references.insert link.owner (referencing.insert link.name link.foreignKey) }

end CollectionLinks

namespace Graph

/-- Changes the links of a collection, which comes into the graph if it is new. -/
def modify (graph : Graph) (name : String) (change : CollectionLinks → CollectionLinks) : Graph :=
  ⟨graph.collections.insert name (change (graph.links name))⟩

/-- Enters a foreign key with the collection that holds it and then with its target. -/
def enter (graph : Graph) (link : DeclaredLink) : Graph :=
  (graph.modify link.owner (·.addForeignKey link)).modify link.foreignKey.collection
    (·.addReference link)

/-- Enters a declaration: the key of the collection, and then its foreign keys. -/
def declare (graph : Graph) (name : String) (declaration : CollectionDeclaration) : Graph :=
  (declaration.declaredLinks name).foldl enter
    (graph.modify name fun links => { links with key := declaration.key.getD "_id" })

def declareAll (graph : Graph) (entries : List (String × CollectionDeclaration)) : Graph :=
  entries.foldl (fun graph (name, declaration) => graph.declare name declaration) graph

section Entering

variable (graph : Graph) (link : DeclaredLink) (name : String)
  (change : CollectionLinks → CollectionLinks)

@[simp]
theorem links_modify (other : String) : (graph.modify name change).links other =
    if other = name then change (graph.links name) else graph.links other := by
  simp only [links, get?, modify, NameMap.get?_insert]
  split <;> rfl

@[simp]
theorem contains_modify (other : String) : (graph.modify name change).contains other ↔
    other = name ∨ graph.contains other := by
  simp only [contains, modify, NameMap.contains, NameMap.get?_insert]
  by_cases hother : other = name <;> simp [hother]

theorem contains_enter (other : String) : (graph.enter link).contains other ↔
    other = link.foreignKey.collection ∨ other = link.owner ∨ graph.contains other := by
  simp only [enter, contains_modify]

theorem key_enter (other : String) :
    ((graph.enter link).links other).key = (graph.links other).key := by
  simp only [enter, links_modify]
  split_ifs <;> simp_all [CollectionLinks.addForeignKey, CollectionLinks.addReference]

theorem foreignKeys_enter (other : String) : ((graph.enter link).links other).foreignKeys =
    if other = link.owner then (graph.links other).foreignKeys.insert link.name link.foreignKey
    else (graph.links other).foreignKeys := by
  simp only [enter, links_modify]
  split_ifs <;> simp_all [CollectionLinks.addForeignKey, CollectionLinks.addReference]

theorem references_enter (other : String) : ((graph.enter link).links other).references =
    if other = link.foreignKey.collection then ((graph.links other).addReference link).references
    else (graph.links other).references := by
  simp only [enter, links_modify]
  split_ifs <;> simp_all [CollectionLinks.addForeignKey, CollectionLinks.addReference]

theorem foreignKey?_enter (owner other : String) : (graph.enter link).foreignKey? owner other =
    if owner = link.owner ∧ other = link.name then some link.foreignKey
    else graph.foreignKey? owner other := by
  simp only [foreignKey?_eq_links, foreignKeys_enter]
  by_cases howner : owner = link.owner <;> simp [howner, NameMap.get?_insert]

theorem reference?_enter (target owner other : String) :
    (graph.enter link).reference? target owner other =
      if target = link.foreignKey.collection ∧ owner = link.owner ∧ other = link.name then
        some link.foreignKey
      else graph.reference? target owner other := by
  simp only [reference?_eq_links, references_enter, CollectionLinks.addReference]
  by_cases htarget : target = link.foreignKey.collection <;>
    by_cases howner : owner = link.owner <;>
      by_cases hname : other = link.name <;>
        simp [htarget, howner, hname, NameMap.get?_insert, NameMap.get?_getD_empty]

end Entering

/-- Whether a graph holds some links and no other ones: each as a foreign key of its owner and as a
reference to its target. -/
structure Reflects (graph : Graph) (entered : List DeclaredLink) : Prop where
  foreignKey?_iff : ∀ owner name foreignKey, graph.foreignKey? owner name = some foreignKey ↔
    ⟨owner, name, foreignKey⟩ ∈ entered
  reference?_iff : ∀ target owner name foreignKey,
    graph.reference? target owner name = some foreignKey ↔
      ⟨owner, name, foreignKey⟩ ∈ entered ∧ foreignKey.collection = target
  isEmpty_eq_false : ∀ target owner foreignKeys,
    (graph.links target).references.get? owner = some foreignKeys → foreignKeys.isEmpty = false

variable {graph : Graph} {entered : List DeclaredLink}

theorem reflects_empty : Reflects {} [] := by
  refine ⟨fun _ _ _ => ?_, fun _ _ _ _ => ?_, fun _ _ _ h => nomatch h⟩
  · simp [foreignKey?, get?]
  · simp [reference?, get?]

/-- Only the foreign keys and the references of a graph count. -/
theorem Reflects.congr {other : Graph} (h : Reflects graph entered)
    (hforeign : ∀ name, (other.links name).foreignKeys = (graph.links name).foreignKeys)
    (hreferences : ∀ name, (other.links name).references = (graph.links name).references) :
    Reflects other entered where
  foreignKey?_iff owner name foreignKey := by
    rw [foreignKey?_eq_links, hforeign, ← foreignKey?_eq_links, h.foreignKey?_iff]
  reference?_iff target owner name foreignKey := by
    rw [reference?_eq_links, hreferences, ← reference?_eq_links, h.reference?_iff]
  isEmpty_eq_false target owner foreignKeys := by
    rw [hreferences]
    exact h.isEmpty_eq_false target owner foreignKeys

theorem notMem_of_free {link : DeclaredLink} (hfree : link.place ∉ entered.map DeclaredLink.place)
    {owner name : String} (hplace : owner = link.owner ∧ name = link.name)
    (foreignKey : ForeignKey) : ⟨owner, name, foreignKey⟩ ∉ entered := by
  obtain ⟨rfl, rfl⟩ := hplace
  exact fun hmem => hfree (List.mem_map.2 ⟨_, hmem, rfl⟩)

/-- Where the place of a link is free, it comes to hold that link and no other place changes. -/
theorem mem_concat_iff {link : DeclaredLink} (hfree : link.place ∉ entered.map DeclaredLink.place)
    {owner name : String} {foreignKey : ForeignKey} :
    ⟨owner, name, foreignKey⟩ ∈ entered ++ [link] ↔
      if owner = link.owner ∧ name = link.name then link.foreignKey = foreignKey
      else ⟨owner, name, foreignKey⟩ ∈ entered := by
  obtain ⟨linkOwner, linkName, linkForeignKey⟩ := link
  rw [List.mem_append, List.mem_singleton, DeclaredLink.mk.injEq, ← and_assoc]
  split
  case isTrue hplace =>
    rw [or_iff_right (notMem_of_free hfree hplace foreignKey), and_iff_right hplace, eq_comm]
  case isFalse hplace => exact or_iff_left fun heq => hplace heq.1

/-- Entering a link whose place is free keeps the two sides in step. -/
theorem Reflects.enter (h : Reflects graph entered) {link : DeclaredLink}
    (hfree : link.place ∉ entered.map DeclaredLink.place) :
    Reflects (graph.enter link) (entered ++ [link]) where
  foreignKey?_iff owner name foreignKey := by
    rw [foreignKey?_enter, mem_concat_iff hfree]
    split
    · rw [Option.some.injEq]
    · exact h.foreignKey?_iff owner name foreignKey
  reference?_iff target owner name foreignKey := by
    rw [reference?_enter, mem_concat_iff hfree]
    split
    case isTrue hboth =>
      rw [if_pos hboth.2, Option.some.injEq, hboth.1]
      exact ⟨fun heq => ⟨heq, heq ▸ rfl⟩, And.left⟩
    case isFalse hnot =>
      rw [h.reference?_iff]
      refine and_congr_left fun htarget => ?_
      split
      case isTrue hplace =>
        refine iff_of_false (notMem_of_free hfree hplace foreignKey) fun heq => ?_
        exact hnot ⟨by rw [heq, htarget], hplace⟩
      case isFalse => rfl
  isEmpty_eq_false target owner foreignKeys hget := by
    rw [references_enter] at hget
    split at hget
    · rw [CollectionLinks.addReference] at hget
      dsimp only at hget
      rw [NameMap.get?_insert] at hget
      split at hget
      · cases hget
        exact NameMap.isEmpty_insert _ _ _
      · exact h.isEmpty_eq_false target owner foreignKeys hget
    · exact h.isEmpty_eq_false target owner foreignKeys hget

/-- Entering links one after the other, each at a place that is free then. -/
theorem Reflects.foldl_enter (h : Reflects graph entered) {links : List DeclaredLink}
    (hplaces : ((entered ++ links).map DeclaredLink.place).Nodup) :
    Reflects (links.foldl Graph.enter graph) (entered ++ links) := by
  induction links generalizing graph entered with
  | nil => rwa [List.append_nil]
  | cons link rest ih =>
    have hfree : link.place ∉ entered.map DeclaredLink.place := by
      rw [List.map_append, List.map_cons, List.nodup_middle, List.nodup_cons, List.mem_append,
        not_or] at hplaces
      exact hplaces.1.1
    rw [List.append_cons] at hplaces ⊢
    exact ih (h.enter hfree) hplaces

theorem Reflects.declare (h : Reflects graph entered) {name : String}
    {declaration : CollectionDeclaration}
    (hplaces : ((entered ++ declaration.declaredLinks name).map DeclaredLink.place).Nodup) :
    Reflects (graph.declare name declaration) (entered ++ declaration.declaredLinks name) := by
  refine Reflects.foldl_enter (h.congr (fun other => ?_) fun other => ?_) hplaces <;>
  · rw [links_modify]
    split_ifs with hname
    · rw [hname]
    · rfl

theorem Reflects.declareAll (h : Reflects graph entered)
    {entries : List (String × CollectionDeclaration)}
    (hplaces : ((entered ++ entries.flatMap fun entry => entry.2.declaredLinks entry.1).map
      DeclaredLink.place).Nodup) :
    Reflects (graph.declareAll entries)
      (entered ++ entries.flatMap fun entry => entry.2.declaredLinks entry.1) := by
  induction entries generalizing graph entered with
  | nil => rwa [List.flatMap_nil, List.append_nil]
  | cons entry rest ih =>
    obtain ⟨name, declaration⟩ := entry
    rw [List.flatMap_cons, ← List.append_assoc] at hplaces ⊢
    refine ih (h.declare ?_) hplaces
    rw [List.map_append] at hplaces
    exact hplaces.of_append_left

theorem contains_foldl_enter {links : List DeclaredLink} {other : String} :
    (links.foldl Graph.enter graph).contains other ↔ graph.contains other ∨
      ∃ link ∈ links, other = link.foreignKey.collection ∨ other = link.owner := by
  induction links generalizing graph with
  | nil => simp
  | cons link rest ih =>
    rw [List.foldl_cons, ih, contains_enter, List.exists_mem_cons_iff]
    simp only [or_assoc, or_left_comm]

theorem contains_declare {name other : String} {declaration : CollectionDeclaration} :
    (graph.declare name declaration).contains other ↔ graph.contains other ∨ other = name ∨
      ∃ link ∈ declaration.declaredLinks name, other = link.foreignKey.collection := by
  have howner : ∀ link ∈ declaration.declaredLinks name, link.owner = name := by
    intro link hlink
    obtain ⟨entry, -, rfl⟩ := List.mem_map.1 hlink
    rfl
  rw [declare, contains_foldl_enter, contains_modify]
  constructor
  · rintro ((hname | hcontains) | ⟨link, hlink, htarget | hother⟩)
    · exact .inr (.inl hname)
    · exact .inl hcontains
    · exact .inr (.inr ⟨link, hlink, htarget⟩)
    · exact .inr (.inl (hother.trans (howner link hlink)))
  · rintro (hcontains | hname | ⟨link, hlink, htarget⟩)
    · exact .inl (.inr hcontains)
    · exact .inl (.inl hname)
    · exact .inr ⟨link, hlink, .inl htarget⟩

theorem contains_declareAll {entries : List (String × CollectionDeclaration)} {other : String} :
    (graph.declareAll entries).contains other ↔ graph.contains other ∨
      other ∈ entries.map Prod.fst ∨
      ∃ link ∈ entries.flatMap fun entry => entry.2.declaredLinks entry.1,
        other = link.foreignKey.collection := by
  induction entries generalizing graph with
  | nil => simp [declareAll]
  | cons entry rest ih =>
    rw [declareAll, List.foldl_cons, ← declareAll, ih, contains_declare, List.map_cons,
      List.mem_cons, List.flatMap_cons]
    simp only [List.mem_append, or_and_right, exists_or, or_assoc, or_left_comm]

theorem key_foldl_enter (links : List DeclaredLink) (other : String) :
    ((links.foldl Graph.enter graph).links other).key = (graph.links other).key := by
  induction links generalizing graph with
  | nil => rfl
  | cons link rest ih => rw [List.foldl_cons, ih, key_enter]

theorem key_declare {name other : String} {declaration : CollectionDeclaration} :
    ((graph.declare name declaration).links other).key =
      if other = name then declaration.key.getD "_id" else (graph.links other).key := by
  rw [declare, key_foldl_enter, links_modify]
  split <;> rfl

theorem key_declareAll {entries : List (String × CollectionDeclaration)}
    (hnames : (entries.map Prod.fst).Nodup) (other : String) :
    ((graph.declareAll entries).links other).key =
      match lookupName other entries with
      | some declaration => declaration.key.getD "_id"
      | none => (graph.links other).key := by
  induction entries generalizing graph with
  | nil => rfl
  | cons entry rest ih =>
    obtain ⟨name, declaration⟩ := entry
    obtain ⟨hname, hrest⟩ := List.nodup_cons.1 hnames
    rw [declareAll, List.foldl_cons, ← declareAll, ih hrest, lookupName]
    dsimp only
    split_ifs with hother
    · rw [NameMap.lookupName_eq_none_iff.2 (hother ▸ hname), key_declare, if_pos hother.symm]
    · rw [key_declare, if_neg (Ne.symm hother)]

theorem get?_eq_ite (graph : Graph) (name : String) :
    graph.get? name = if graph.contains name then some (graph.links name) else none := by
  rw [contains, NameMap.contains, links, get?]
  cases graph.collections.get? name <;> rfl

/-- A graph is determined by the links that it reflects, its collections and their keys. -/
theorem Reflects.eq {other : Graph} (h : Reflects graph entered) (hother : Reflects other entered)
    (hcontains : ∀ name, graph.contains name ↔ other.contains name)
    (hkey : ∀ name, (graph.links name).key = (other.links name).key) : graph = other := by
  have hlinks (name : String) : graph.links name = other.links name := by
    have hforeign : (graph.links name).foreignKeys = (other.links name).foreignKeys := by
      refine NameMap.ext_get? fun foreignName => Option.ext fun foreignKey => ?_
      rw [← foreignKey?_eq_links, ← foreignKey?_eq_links, h.foreignKey?_iff, hother.foreignKey?_iff]
    have hreferences : (graph.links name).references = (other.links name).references := by
      refine NameMap.ext_get?_bind (h.isEmpty_eq_false name) (hother.isEmpty_eq_false name)
        fun owner foreignName => Option.ext fun foreignKey => ?_
      rw [← reference?_eq_links, ← reference?_eq_links, h.reference?_iff, hother.reference?_iff]
    cases hl : graph.links name
    cases hr : other.links name
    have hkeys := hkey name
    rw [hl, hr] at hforeign hreferences hkeys
    cases hforeign
    cases hreferences
    cases hkeys
    rfl
  obtain ⟨collections⟩ := graph
  obtain ⟨others⟩ := other
  have hcollections : collections = others := by
    refine NameMap.ext_get? fun name => ?_
    have hleft := get?_eq_ite ⟨collections⟩ name
    have hright := get?_eq_ite ⟨others⟩ name
    rw [hlinks, Bool.eq_iff_iff.2 (hcontains name)] at hleft
    exact hleft.trans hright.symm
  rw [hcollections]

variable {schema : Schema}

theorem mem_declaredLinks_iff {owner name : String} {foreignKey : ForeignKey} :
    ⟨owner, name, foreignKey⟩ ∈ schema.declaredLinks ↔ ∃ declaration path declared,
      schema.get? owner = some declaration ∧ declaration.foreignKeys.get? path = some declared ∧
      pathKey (splitPath path) = name ∧ .ofDeclaration owner path declared = foreignKey := by
  simp only [Schema.declaredLinks, CollectionDeclaration.declaredLinks, List.mem_flatMap,
    List.mem_map, Prod.exists, DeclaredLink.mk.injEq, NameMap.mem_entries_iff]
  constructor
  · rintro ⟨_, declaration, hget, path, declared, hforeign, rfl, hname, rfl⟩
    exact ⟨declaration, path, declared, hget, hforeign, hname, rfl⟩
  · rintro ⟨declaration, path, declared, hget, hforeign, hname, rfl⟩
    exact ⟨owner, declaration, hget, path, declared, hforeign, rfl, hname, rfl⟩

/-- In an acceptable schema no two declared foreign keys have the same place. -/
theorem nodup_places (h : schema.Acceptable) :
    (schema.declaredLinks.map DeclaredLink.place).Nodup := by
  have hplaces (entry : String × CollectionDeclaration) :
      (entry.2.declaredLinks entry.1).map DeclaredLink.place =
        (entry.2.foreignKeys.entries.map fun foreign => pathKey (splitPath foreign.1)).map
          (Prod.mk entry.1) := by
    rw [CollectionDeclaration.declaredLinks, List.map_map, List.map_map]
    rfl
  change ((schema.collections.entries.flatMap
    fun entry => entry.2.declaredLinks entry.1).map _).Nodup
  rw [List.map_flatMap, List.nodup_flatMap]
  constructor
  · intro entry hentry
    have hdeclaration := h _ _ (NameMap.mem_entries_iff.1 hentry)
    rw [hplaces]
    exact (CollectionDeclaration.nodup_names_iff.2 hdeclaration.distinct).map
      (Prod.mk_right_injective entry.1)
  · refine schema.collections.increasing.imp fun {first second} hlt place hfirst hsecond => ?_
    dsimp only at hfirst hsecond
    rw [hplaces] at hfirst hsecond
    obtain ⟨_, -, rfl⟩ := List.mem_map.1 hfirst
    obtain ⟨_, -, heq⟩ := List.mem_map.1 hsecond
    exact String.lt_irrefl first.1 ((Prod.mk.inj heq).1 ▸ hlt)

theorem get?_foreignKeysOf (h : schema.Acceptable) {owner name : String} {foreignKey : ForeignKey} :
    (schema.foreignKeysOf owner).get? name = some foreignKey ↔
      ⟨owner, name, foreignKey⟩ ∈ schema.declaredLinks := by
  rw [mem_declaredLinks_iff, Schema.foreignKeysOf]
  cases hget : schema.get? owner with
  | none => simp
  | some declaration =>
    have hnames := CollectionDeclaration.nodup_names_iff.2 (h _ _ hget).distinct
    dsimp only [CollectionDeclaration.compile]
    rw [NameMap.get?_ofList_eq_some_iff (by rwa [List.map_map])]
    simp [NameMap.mem_entries_iff]

/-- The graph of a schema reflects the declared foreign keys. -/
theorem reflects_build (hbuilt : build schema = .ok graph) :
    Reflects graph schema.declaredLinks := by
  have hacceptable := exists_build_iff.1 ⟨graph, hbuilt⟩
  have hforeign (owner name : String) (foreignKey : ForeignKey) :
      graph.foreignKey? owner name = some foreignKey ↔
        ⟨owner, name, foreignKey⟩ ∈ schema.declaredLinks := by
    rw [foreignKey?_eq_links, links_build hbuilt]
    exact get?_foreignKeysOf hacceptable
  refine ⟨hforeign, fun target owner name foreignKey => ?_, fun target owner foreignKeys hget => ?_⟩
  · rw [reference?_eq_some_iff hbuilt, hforeign]
  · rw [links_build hbuilt] at hget
    simpa using (NameMap.get?_filter.1 hget).2

theorem mem_targets_iff (h : schema.Acceptable) {name : String} :
    name ∈ schema.targets ↔ ∃ link ∈ schema.declaredLinks, name = link.foreignKey.collection := by
  simp only [Schema.targets, List.mem_flatMap, List.mem_map, NameMap.mem_values_iff,
    get?_foreignKeysOf h]
  constructor
  · rintro ⟨owner, -, foreignKey, ⟨foreignName, hlink⟩, rfl⟩
    exact ⟨_, hlink, rfl⟩
  · rintro ⟨⟨owner, foreignName, foreignKey⟩, hlink, rfl⟩
    obtain ⟨declaration, _, _, hget, -⟩ := mem_declaredLinks_iff.1 hlink
    exact ⟨owner, NameMap.mem_keys_iff.2 ⟨declaration, hget⟩, foreignKey, ⟨foreignName, hlink⟩, rfl⟩

theorem contains_build (hbuilt : build schema = .ok graph) {name : String} :
    graph.contains name ↔ name ∈ schema.collections.keys ∨
      ∃ link ∈ schema.declaredLinks, name = link.foreignKey.collection := by
  rw [← mem_targets_iff (exists_build_iff.1 ⟨graph, hbuilt⟩), ← List.mem_append]
  obtain ⟨-, rfl⟩ := build_eq_ok_iff.1 hbuilt
  rw [contains, Schema.graph, NameMap.contains, NameMap.get?_ofList_map]
  split_ifs with hname <;> simp [hname]

/-- The graph of a schema is made by entering the declarations in turn. -/
theorem build_eq_declareAll (hbuilt : build schema = .ok graph) :
    graph = declareAll {} schema.collections.entries := by
  have hacceptable := exists_build_iff.1 ⟨graph, hbuilt⟩
  have hdeclared : Reflects (declareAll {} schema.collections.entries) schema.declaredLinks :=
    reflects_empty.declareAll (nodup_places hacceptable)
  refine (reflects_build hbuilt).eq hdeclared (fun name => ?_) fun name => ?_
  · rw [contains_build hbuilt, contains_declareAll]
    exact (or_iff_right Bool.false_ne_true).symm
  · rw [links_build hbuilt, key_declareAll schema.collections.nodup_keys, Schema.linksOf,
      Schema.get?, NameMap.get?]
    cases lookupName name schema.collections.entries <;> rfl

section Built

variable (hbuilt : build schema = .ok graph)
include hbuilt

theorem foreignKey?_build_iff {owner name : String} {foreignKey : ForeignKey} :
    graph.foreignKey? owner name = some foreignKey ↔ ∃ declaration path declared,
      schema.get? owner = some declaration ∧ declaration.foreignKeys.get? path = some declared ∧
      pathKey (splitPath path) = name ∧ .ofDeclaration owner path declared = foreignKey :=
  ((reflects_build hbuilt).foreignKey?_iff owner name foreignKey).trans mem_declaredLinks_iff

theorem contains_build_iff {name : String} :
    graph.contains name ↔ (∃ declaration, schema.get? name = some declaration) ∨
      ∃ owner declaration path declared, schema.get? owner = some declaration ∧
        declaration.foreignKeys.get? path = some declared ∧
        declared.collection.getD owner = name := by
  rw [contains_build hbuilt, NameMap.mem_keys_iff]
  refine or_congr Iff.rfl ⟨?_, ?_⟩
  · rintro ⟨⟨owner, foreignName, foreignKey⟩, hlink, rfl⟩
    obtain ⟨declaration, path, declared, hget, hdeclared, -, rfl⟩ := mem_declaredLinks_iff.1 hlink
    exact ⟨owner, declaration, path, declared, hget, hdeclared, rfl⟩
  · rintro ⟨owner, declaration, path, declared, hget, hdeclared, rfl⟩
    exact ⟨_, mem_declaredLinks_iff.2 ⟨declaration, path, declared, hget, hdeclared, rfl, rfl⟩, rfl⟩

/-- Canonical keys tell the declared paths of a collection apart, and its foreign keys have no other
ones. -/
theorem bijOn_pathKey {owner : String} {declaration : CollectionDeclaration}
    (hget : schema.get? owner = some declaration) :
    Set.BijOn (fun path => pathKey (splitPath path)) {path | path ∈ declaration.foreignKeys.keys}
      {name | (graph.foreignKey? owner name).isSome} := by
  refine ⟨fun path hpath => ?_, fun path hpath other hother heq => ?_, fun name hname => ?_⟩
  · obtain ⟨declared, hdeclared⟩ := NameMap.mem_keys_iff.1 hpath
    exact Option.isSome_iff_exists.2 ⟨_, (foreignKey?_build_iff hbuilt).2
      ⟨declaration, path, declared, hget, hdeclared, rfl, rfl⟩⟩
  · exact (exists_build_iff.1 ⟨graph, hbuilt⟩ _ _ hget).distinct path hpath other hother heq
  · obtain ⟨foreignKey, hforeign⟩ := Option.isSome_iff_exists.1 hname
    obtain ⟨_, path, declared, hdeclaration, hdeclared, hpath, -⟩ :=
      (foreignKey?_build_iff hbuilt).1 hforeign
    cases hget.symm.trans hdeclaration
    exact ⟨path, NameMap.mem_keys_iff.2 ⟨declared, hdeclared⟩, hpath⟩

/-- The collections of a graph are the declared ones and the targets of declared foreign keys, each
with its declared key or `_id`; canonical keys put the foreign keys of a collection in bijection with
its declared paths; and the references of a graph are its foreign keys seen from the targets. The
graph is the one that entering the declarations in turn makes. -/
theorem build_mirrors :
    graph = declareAll {} schema.collections.entries ∧
    (∀ name, graph.contains name ↔ (∃ declaration, schema.get? name = some declaration) ∨
      ∃ owner declaration path declared, schema.get? owner = some declaration ∧
        declaration.foreignKeys.get? path = some declared ∧
        declared.collection.getD owner = name) ∧
    (∀ name links, graph.get? name = some links →
      links.key = ((schema.get? name).bind CollectionDeclaration.key).getD "_id") ∧
    (∀ owner declaration, schema.get? owner = some declaration →
      Set.BijOn (fun path => pathKey (splitPath path)) {path | path ∈ declaration.foreignKeys.keys}
        {name | (graph.foreignKey? owner name).isSome} ∧
      ∀ path declared, declaration.foreignKeys.get? path = some declared →
        graph.foreignKey? owner (pathKey (splitPath path)) =
          some (.ofDeclaration owner path declared)) ∧
    (∀ owner, schema.get? owner = none → ∀ name, graph.foreignKey? owner name = none) ∧
    ∀ referencing target name foreignKey,
      graph.foreignKey? referencing name = some foreignKey ∧ foreignKey.collection = target ↔
        graph.reference? target referencing name = some foreignKey := by
  refine ⟨build_eq_declareAll hbuilt, fun name => contains_build_iff hbuilt,
    fun name links hget => ?_,
    fun owner declaration hget => ⟨bijOn_pathKey hbuilt hget, fun path declared hdeclared => ?_⟩,
    fun owner hget name => ?_,
    fun referencing target name foreignKey => (reference?_eq_some_iff hbuilt).symm⟩
  · have hlinks := links_build hbuilt name
    rw [Graph.links, hget] at hlinks
    exact congrArg CollectionLinks.key hlinks
  · exact (foreignKey?_build_iff hbuilt).2 ⟨declaration, path, declared, hget, hdeclared, rfl, rfl⟩
  · refine Option.eq_none_iff_forall_ne_some.2 fun foreignKey hforeign => ?_
    obtain ⟨_, _, _, hdeclaration, -⟩ := (foreignKey?_build_iff hbuilt).1 hforeign
    cases hget.symm.trans hdeclaration

end Built

/-- A library with a target declared later, one never declared and a collection that refers to
itself. -/
def seriesSchema : Schema where
  collections := .ofList [
    ("authors", { foreignKeys := .ofList [("books.$", { collection := some "books" })] }),
    ("books", { key := some "isbn", foreignKeys := .ofList [
      ("author", { collection := some "authors", onDelete := some .delete }),
      ("copies.$.shelf", { collection := some "shelves" }),
      ("sequel", {})] })]

theorem mirrors_seriesGraph :
    seriesSchema.graph.contains "shelves" ∧ (seriesSchema.graph.links "books").key = "isbn" ∧
    seriesSchema.graph.reference? "shelves" "books" "copies.shelf" =
      some ⟨["copies", "$", "shelf"], "shelves", .verify, .bypass, none⟩ ∧
    seriesSchema.graph.reference? "books" "books" "sequel" =
      some ⟨["sequel"], "books", .verify, .bypass, none⟩ := by
  obtain ⟨-, hcontains, hkey, hforeign, -, hmirrors⟩ := build_mirrors (seriesSchema.build_graph rfl)
  refine ⟨(hcontains _).2 (.inr ⟨"books", _, "copies.$.shelf", _, rfl, rfl, rfl⟩),
    hkey "books" _ rfl, (hmirrors _ _ _ _).1 ⟨?_, rfl⟩, (hmirrors _ _ _ _).1 ⟨?_, rfl⟩⟩
  · exact (hforeign "books" _ rfl).2 "copies.$.shelf" _ rfl
  · exact (hforeign "books" _ rfl).2 "sequel" _ rfl

end Graph

end LinkedDocs
