import LinkedDocs.Proofs.Removal.Completion
import LinkedDocs.Proofs.Removal.Dangling
import LinkedDocs.Proofs.Update.Cutting

namespace LinkedDocs

open Json Update

/-- The cut along a foreign key path that its delete policy asks for. -/
def ForeignKey.cut (foreignKey : ForeignKey) (keys : List Json) : Cut :=
  match foreignKey.onDelete, Updater.splitAtLastWildcard? foreignKey.path with
  | .pull, some (outer, inner) => { keys, outer := outer ++ [wildcard], inner }
  | .nullify, _ => { keys, outer := foreignKey.path, inner := [], left := some (.atom .null) }
  | _, _ => { keys, outer := foreignKey.path, inner := [] }

namespace ForeignKey

variable {foreignKey : ForeignKey} {keys : List Json}

theorem cut_cases (foreignKey : ForeignKey) (keys : List Json) :
    (∃ outer inner, Updater.splitAtLastWildcard? foreignKey.path = some (outer, inner) ∧
      foreignKey.cut keys = { keys, outer := outer ++ [wildcard], inner }) ∨
    ∃ left, (left = none ∨ left = some (.atom .null)) ∧
      foreignKey.cut keys = { keys, outer := foreignKey.path, inner := [], left } := by
  unfold cut
  split
  case h_1 outer inner _ hsplit => exact .inl ⟨outer, inner, hsplit, rfl⟩
  case h_2 => exact .inr ⟨_, .inr rfl, rfl⟩
  case h_3 => exact .inr ⟨_, .inl rfl, rfl⟩

theorem path_cut (foreignKey : ForeignKey) (keys : List Json) :
    (foreignKey.cut keys).path = foreignKey.path := by
  obtain ⟨outer, inner, hsplit, hcut⟩ | ⟨left, -, hcut⟩ := cut_cases foreignKey keys
  · rw [hcut, Cut.path, (Updater.eq_of_splitAtLastWildcard? hsplit).1, List.append_assoc,
      List.singleton_append]
  · rw [hcut, Cut.path, List.append_nil]

theorem keys_cut (foreignKey : ForeignKey) (keys : List Json) :
    (foreignKey.cut keys).keys = keys := by
  unfold cut
  split <;> rfl

/-- The keys make no difference to where a foreign key is cut and what is left there. -/
theorem agrees_cut (foreignKey : ForeignKey) (keys others : List Json) :
    (foreignKey.cut keys).Agrees (foreignKey.cut others) := by
  intro _
  unfold cut
  split <;> exact ⟨rfl, rfl⟩

theorem cut_of_clears {operator : UpdateOperator} {argument : Json}
    (hclears : Clears operator argument)
    (hpolicy : foreignKey.onDelete = if operator.creates then .nullify else .unset)
    (keys : List Json) :
    foreignKey.cut keys =
      { keys, outer := foreignKey.path, inner := [], left := leftBy operator } := by
  unfold cut
  rw [hpolicy]
  cases hclears <;> rfl

theorem cut_of_pull {outer inner : List String} (hpolicy : foreignKey.onDelete = .pull)
    (hsplit : Updater.splitAtLastWildcard? foreignKey.path = some (outer, inner))
    (keys : List Json) :
    foreignKey.cut keys = { keys, outer := outer ++ [wildcard], inner } := by
  unfold cut
  rw [hpolicy, hsplit]

variable {name : String}

theorem Compiled.wellFormed_cut (h : foreignKey.Compiled name)
    (hkeys : ∀ key ∈ keys, key.isScalar) : (foreignKey.cut keys).WellFormed := by
  obtain ⟨outer, inner, hsplit, hcut⟩ | ⟨left, hleft, hcut⟩ := cut_cases foreignKey keys
  · rw [hcut]
    refine ⟨hkeys, (h.areNames_inner hsplit).wildcard_notMem, .inl rfl, .inr ?_⟩
    intro segment hsegment
    rw [List.getLast?_concat] at hsegment
    exact (Option.some.inj hsegment).symm
  · rw [hcut]
    exact ⟨hkeys, List.not_mem_nil, hleft.imp id fun hnull => ⟨hnull, rfl⟩, .inl rfl⟩

/-- The query for some keys in a foreign key finds them where the path of the cut leads. -/
theorem Compiled.anyAmong_lookup (h : foreignKey.Compiled name)
    (hkeys : ∀ key ∈ keys, key.isScalar) {document : Json} (hfits : document.fits foreignKey.path) :
    Filter.anyAmong (Filter.lookup document name) keys =
      document.content.holdsAt keys foreignKey.path := by
  rw [Filter.lookup, h.splitPath_name]
  exact Filter.anyAmong_eq_holdsAt (fun _ => h.isValid_of_mem) hkeys hfits

variable [Platform]

/-- On a document that fits and holds a key, clearing the foreign key is followed along its path. -/
theorem Compiled.relates_of_clears (h : foreignKey.Compiled name)
    (hkeys : ∀ key ∈ keys, key.isScalar) {operator : UpdateOperator} {argument : Json}
    {relates : List String → Json → Json → Prop}
    (hfollows : FollowsClearing operator argument keys relates)
    (hpolicy : foreignKey.onDelete = if operator.creates then .nullify else .unset)
    (hlast : foreignKey.path.getLast? ≠ some wildcard) {document : Json}
    (hnames : document.namesOnce) (hfits : document.fitsWhere foreignKey.mayMiss foreignKey.path)
    (hmatches : Filter.anyAmong (Filter.lookup document name) keys) {result : Json × Bool}
    (hupdate : updateAt ((Updater.forSet foreignKey.path).conditions keys) operator argument
      (splitPath (Updater.forSet foreignKey.path).target) document = .ok result) :
    relates foreignKey.path document result.1 := by
  have hholds : document.content.holdsAt keys foreignKey.path := by
    rw [← h.anyAmong_lookup hkeys (fits_of_fitsWhere hfits)]
    exact hmatches
  rcases h.forSet_cases hlast keys with
    ⟨hwildcard, htarget⟩ | ⟨outer, inner, hsplit, hinner, htarget, hconditions⟩
  · rw [htarget] at hupdate
    exact hfollows.names hwildcard h.path_ne_nil hnames hholds hupdate
  · have hpath := (Updater.eq_of_splitAtLastWildcard? hsplit).1
    obtain ⟨found, hfound⟩ := Filter.exists_candidate_of_anyAmong
      (fun key hkey => isNull_eq_false_of_isScalar (hkeys key hkey)) hmatches
    rw [Filter.lookup, h.splitPath_name] at hfound
    have hthere := fitsWhere_of_candidate hfound hfits
    rw [htarget, hconditions] at hupdate
    rw [hpath] at hthere ⊢
    refine hfollows.openWildcards (List.cons_ne_nil _ _) (fun hset before => ?_)
      (fun hvalue hvalueFits => hfollows.selected hkeys (h.areNames_inner hsplit) hinner hvalue
        hvalueFits) hnames hthere hupdate
    rw [← hpath]
    exact mayMiss_wildcard (hpolicy.trans (if_pos hset)) before inner

/-- On a document that fits and holds a key, the update of a foreign key is its cut. -/
theorem Compiled.apply_cut (h : foreignKey.Compiled name) (hkeys : ∀ key ∈ keys, key.isScalar)
    {operator : UpdateOperator} {argument : Json} {target : String} {arrayFilters : List Json}
    (hby : foreignKey.DetachesBy keys operator argument target arrayFilters) {document : Json}
    (hnames : document.namesOnce) (hfits : document.fitsWhere foreignKey.mayMiss foreignKey.path)
    (hmatches : Filter.anyAmong (Filter.lookup document name) keys) {result : Json × Bool}
    (hupdate : updateAt arrayFilters operator argument (splitPath target) document = .ok result) :
    (foreignKey.cut keys).apply document.content = some result.1.content := by
  cases hby with
  | clear hclears hpolicy hlast =>
    rw [cut_of_clears hclears hpolicy, Cut.apply]
    exact h.relates_of_clears hkeys
      (hclears.followsClearing_edit ⟨keys, foreignKey.path, [], leftBy operator⟩ rfl rfl) hpolicy
      hlast hnames hfits hmatches hupdate
  | @pull outer inner hpolicy hsplit =>
    have hpath := (Updater.eq_of_splitAtLastWildcard? hsplit).1
    rw [hpath] at hfits
    obtain ⟨first, rest, houter, -⟩ := h.exists_outer hsplit
    obtain ⟨init, segment, rfl⟩ :=
      (List.eq_nil_or_concat outer).resolve_left (houter ▸ List.cons_ne_nil _ _)
    rw [h.splitPath_forPull hsplit] at hupdate
    rw [cut_of_pull hpolicy hsplit, Cut.apply]
    rw [List.concat_eq_append] at *
    rw [List.append_assoc, List.singleton_append] at hfits
    rw [Updater.openWildcards, List.map_append, List.map_singleton] at hupdate
    rw [List.append_assoc, List.singleton_append]
    exact (follows_edit _).openWildcards (List.cons_ne_nil _ _) (fun hcreates => by cases hcreates)
      (fun _ hvalueFits => edit_pulled_segment rfl (h.areNames_inner hsplit) hkeys hvalueFits)
      hnames hfits hupdate

/-- On every document that fits, the update of a foreign key is its cut. -/
theorem Compiled.apply_cut_afterUpdate (h : foreignKey.Compiled name)
    (hkeys : ∀ key ∈ keys, key.isScalar) {operator : UpdateOperator} {argument : Json}
    {target : String} {arrayFilters : List Json}
    (hby : foreignKey.DetachesBy keys operator argument target arrayFilters) {document : Json}
    (hnames : document.namesOnce) (hfits : document.fitsWhere foreignKey.mayMiss foreignKey.path)
    {result : Option (Json × Bool)}
    (hresult : Store.updateDocument? (.single name (.oneOf keys))
      (.single operator.name (.single target argument)) arrayFilters document = .ok result) :
    (foreignKey.cut keys).apply document.content =
      some (Store.afterUpdate document result).content := by
  have haccepts := Filter.accepts_oneOf h.isMarked_eq_false document keys
  obtain ⟨hfalse, hsame⟩ | ⟨htrue, changed, hupdate⟩ := Store.afterUpdate_cases hresult
  · rw [haccepts, Except.ok.injEq, h.anyAmong_lookup hkeys (fits_of_fitsWhere hfits)] at hfalse
    rw [hsame]
    refine Cut.apply_eq_some_self ?_
    rw [keys_cut, path_cut]
    exact hfalse
  · rw [haccepts, Except.ok.injEq] at htrue
    exact h.apply_cut hkeys hby hnames hfits htrue hupdate

end ForeignKey

/-- The cut that takes away the documents of a collection with some keys. -/
def Graph.deleteCut (graph : Graph) (name : String) (keys : List Json) : Cut :=
  { keys, outer := [], inner := splitPath (graph.links name).key }

theorem Json.holdsAt_content_of_follow? {path : List String}
    (hnames : ∀ segment ∈ path, Identifier.isValid segment) {value found : Json}
    (h : value.follow? path = some found) (hscalar : found.isScalar) (keys : List Json) :
    value.content.holdsAt keys path = holds keys found := by
  induction path generalizing value with
  | nil =>
    cases h
    rw [content_of_isScalar hscalar, Content.holdsAt_nil_atom]
  | cons segment rest ih =>
    obtain ⟨hsegment, hrest⟩ := List.forall_mem_cons.1 hnames
    obtain ⟨fields, child, rfl, hlookup, hfollow⟩ := exists_fields_of_follow? hsegment h
    rw [content_object, Content.holdsAt_name_object (Identifier.ne_wildcard hsegment), hlookup]
    exact ih hrest hfollow

section Operations

variable {schema : Schema} {graph : Graph} {before after : Store}

theorem Graph.wellFormed_deleteCut (hbuilt : Graph.build schema = .ok graph) (name : String)
    {keys : List Json} (hkeys : ∀ key ∈ keys, key.isScalar) :
    (graph.deleteCut name keys).WellFormed where
  scalar := hkeys
  names := fun hmem =>
    Identifier.ne_wildcard (Graph.isValid_of_mem_key hbuilt name wildcard hmem) rfl
  left := .inl rfl
  outer := .inr fun segment hsegment => by cases hsegment

/-- Foreign keys of a collection with the same path are the same. -/
theorem Graph.foreignKey_eq_of_path_eq (hbuilt : Graph.build schema = .ok graph)
    {referencing name otherName : String} {foreignKey otherKey : ForeignKey}
    (hforeign : (graph.links referencing).foreignKeys.get? name = some foreignKey)
    (hother : (graph.links referencing).foreignKeys.get? otherName = some otherKey)
    (hpath : foreignKey.path = otherKey.path) : foreignKey = otherKey := by
  have hname := (Graph.compiled hbuilt hforeign).splitPath_name
  rw [hpath, ← (Graph.compiled hbuilt hother).splitPath_name] at hname
  have hnames : name = otherName := by
    rw [← joinPath_splitPath name, hname, joinPath_splitPath]
  rw [hnames, hother] at hforeign
  exact (Option.some.inj hforeign).symm

/-- The cut that an operation is, in its collection. -/
inductive Operation.Cuts (graph : Graph) : Operation → String → Cut → Prop
  | delete {name : String} {keys : List Json} (hkeys : ∀ key ∈ keys, key.isScalar) :
      Cuts graph (.delete name ((graph.collection name).keysQuery keys)) name
        (graph.deleteCut name keys)
  | detach {referencing name : String} {foreignKey : ForeignKey} {keys : List Json}
      {operation : Operation}
      (hforeign : (graph.links referencing).foreignKeys.get? name = some foreignKey)
      (hpolicy : foreignKey.onDelete ≠ .bypass ∧ foreignKey.onDelete ≠ .reject ∧
        foreignKey.onDelete ≠ .delete) (hkeys : ∀ key ∈ keys, key.isScalar)
      (hdetach : foreignKey.detach referencing name (.single name (.oneOf keys)) keys =
        .ok operation) : Cuts graph operation referencing (foreignKey.cut keys)

theorem Operation.Handles.exists_cuts {family : String → Json → Prop} {operation : Operation}
    (h : operation.Handles graph family) (hscalar : ∀ name key, family name key → key.isScalar) :
    ∃ name cut, operation.Cuts graph name cut := by
  cases h with
  | delete hkeys => exact ⟨_, _, .delete fun key hkey => hscalar _ key (hkeys key hkey)⟩
  | detach hforeign hpolicy hkeys hdetach =>
    exact ⟨_, _, .detach hforeign hpolicy (fun key hkey => hscalar _ key (hkeys key hkey)) hdetach⟩

variable {operation other : Operation} {collection : String} {cut otherCut : Cut}

theorem Operation.Cuts.wellFormed (hbuilt : Graph.build schema = .ok graph)
    (h : operation.Cuts graph collection cut) : cut.WellFormed := by
  cases h with
  | delete hkeys => exact Graph.wellFormed_deleteCut hbuilt collection hkeys
  | detach hforeign _ hkeys => exact (Graph.compiled hbuilt hforeign).wellFormed_cut hkeys

theorem Graph.KeepsKeys.path_ne (hkeeps : graph.KeepsKeys) {name : String} {foreignKey : ForeignKey}
    (hforeign : (graph.links collection).foreignKeys.get? name = some foreignKey)
    (hpolicy : foreignKey.onDelete ≠ .bypass ∧ foreignKey.onDelete ≠ .reject ∧
      foreignKey.onDelete ≠ .delete) (keys others : List Json) :
    (graph.deleteCut collection keys).path ≠ (foreignKey.cut others).path := by
  intro hpath
  rw [ForeignKey.path_cut] at hpath
  have hkey : (graph.deleteCut collection keys).path = splitPath (graph.links collection).key :=
    List.nil_append _
  refine hkeeps.head?_ne hforeign hpolicy ?_
  rw [← hpath, hkey]

theorem Operation.Cuts.agrees (hbuilt : Graph.build schema = .ok graph) (hkeeps : graph.KeepsKeys)
    (h : operation.Cuts graph collection cut) (hother : other.Cuts graph collection otherCut) :
    cut.Agrees otherCut := by
  cases h with
  | delete =>
    cases hother with
    | delete => exact fun _ => ⟨rfl, rfl⟩
    | detach hforeign hpolicy =>
      exact fun hpath => absurd hpath (hkeeps.path_ne hforeign hpolicy _ _)
  | detach hforeign hpolicy =>
    cases hother with
    | delete => exact fun hpath => absurd hpath.symm (hkeeps.path_ne hforeign hpolicy _ _)
    | detach hotherForeign =>
      intro hpath
      have hpaths := hpath
      rw [ForeignKey.path_cut, ForeignKey.path_cut] at hpaths
      obtain rfl := Graph.foreignKey_eq_of_path_eq hbuilt hforeign hotherForeign hpaths
      exact ForeignKey.agrees_cut _ _ _ hpath

/-- The contents of the documents of a collection, in their order. -/
def Store.contents (store : Store) (name : String) : List Content :=
  (store.documents name).map content

/-- What a cut of the documents of a collection makes of the contents of a store. -/
def Cut.applyIn (cut : Cut) (collection : String) (contents : String → List Content) :
    String → List Content :=
  fun name => if name = collection then (contents name).filterMap cut.apply else contents name

/-- Whether the documents of a store are as the operations of a plan need them. -/
structure Store.Ready (graph : Graph) (store : Store) : Prop where
  names : store.NamesOnce
  keys : store.HasScalarKeys graph
  fits : store.FitsUpdates graph

variable [Platform]

/-- A delete takes away the documents whose content its cut takes away. -/
theorem Graph.apply_deleteCut (hbuilt : Graph.build schema = .ok graph) {name : String}
    {document key : Json} (hkey : (graph.collection name).keyOf? document = some key)
    (hscalar : key.isScalar) (keys : List Json) :
    (graph.deleteCut name keys).apply document.content =
      if Filter.matched ((graph.collection name).keysQuery keys) document then none
      else some document.content := by
  have haccepts := accepts_keysQuery_of_isScalar hbuilt hkey hscalar keys
  rw [Graph.keyOf?_eq_follow? hbuilt] at hkey
  have hholds := holdsAt_content_of_follow? (Graph.isValid_of_mem_key hbuilt name) hkey hscalar keys
  rw [Filter.matched_of_accepts haccepts, ← hholds]
  rfl

theorem Graph.filterMap_deleteCut (hbuilt : Graph.build schema = .ok graph) {name : String}
    {keys : List Json} {documents : List Json}
    (hkeys : ∀ document ∈ documents, ((graph.collection name).keyOf? document).any isScalar) :
    (documents.map content).filterMap (graph.deleteCut name keys).apply =
      (documents.filter fun document =>
        !Filter.matched ((graph.collection name).keysQuery keys) document).map content := by
  induction documents with
  | nil => rfl
  | cons document rest ih =>
    obtain ⟨hfirst, hrest⟩ := List.forall_mem_cons.1 hkeys
    cases hkey : (graph.collection name).keyOf? document with
    | none =>
      rw [hkey] at hfirst
      cases hfirst
    | some key =>
      rw [hkey] at hfirst
      have happly := Graph.apply_deleteCut hbuilt hkey hfirst keys
      rw [List.map_cons, List.filterMap_cons, happly, ih hrest, List.filter_cons]
      cases Filter.matched ((graph.collection name).keysQuery keys) document <;> rfl

/-- What an operation does to the contents of a store is its cut. -/
theorem Operation.Cuts.contents_eq (hbuilt : Graph.build schema = .ok graph)
    (h : operation.Cuts graph collection cut) (hready : before.Ready graph)
    (hturns : operation.TurnsInto before after) :
    after.contents = cut.applyIn collection before.contents := by
  funext name
  rw [Cut.applyIn, Store.contents, Store.contents]
  cases h with
  | delete =>
    obtain ⟨count, hdelete⟩ := hturns
    obtain ⟨-, hdocuments⟩ := Store.documents_deleteMany hdelete
    rw [hdocuments]
    split
    case isTrue hname =>
      subst hname
      rw [Graph.filterMap_deleteCut hbuilt (hready.keys name)]
    case isFalse => rfl
  | detach hforeign hpolicy hkeys hdetach =>
    have hcompiled := Graph.compiled hbuilt hforeign
    have hfits := hready.fits _ _ _ hforeign (DeletePolicy.updates_of_ne hpolicy)
    obtain ⟨operator, argument, target, arrayFilters, rfl, hby⟩ :=
      hcompiled.exists_detachesBy hpolicy hdetach
    obtain ⟨count, hupdate⟩ := hturns
    have hdocuments := Store.forall₂_documents_update rfl hupdate name
    split
    case isTrue hname =>
      subst hname
      refine (filterMap_content_of_forall₂ (((List.forall₂_and_left _ _).2
        ⟨fun document hdocument => hdocument, hdocuments⟩).imp ?_)).symm
      rintro old new ⟨hold, ⟨hne, -⟩ | ⟨-, result, hresult, rfl⟩⟩
      · exact absurd rfl hne
      · exact hcompiled.apply_cut_afterUpdate hkeys hby (hready.names name old hold)
          (hfits old hold) hresult
    case isFalse hname =>
      refine congrArg (List.map content) (List.forall₂_eq_eq_eq ▸ hdocuments.imp ?_).symm
      rintro old new (⟨-, rfl⟩ | ⟨hsame, -⟩)
      · rfl
      · exact absurd hsame hname

end Operations

end LinkedDocs
