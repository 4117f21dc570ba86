import LinkedDocs.Proofs.Filter.Reaching
import LinkedDocs.Proofs.Projection.Part
import LinkedDocs.Proofs.Store.Finding

namespace LinkedDocs

open Json

namespace Graph

variable {schema : Schema} {graph : Graph}

theorem isMarked_key (hbuilt : build schema = .ok graph) (name : String) :
    isMarked (graph.links name).key = false :=
  Identifier.isMarked_of_splitPath (isValid_of_mem_key hbuilt name)

end Graph

/-- The key path of a collection in a graph is not empty, so a key is what it leads to. -/
theorem Graph.keyOf?_eq_follow? {schema : Schema} {graph : Graph}
    (hbuilt : Graph.build schema = .ok graph) (name : String) (document : Json) :
    (graph.collection name).keyOf? document =
      document.follow? (splitPath (graph.links name).key) :=
  Json.getPath?_eq_follow? (Graph.isValid_of_mem_key hbuilt name) document

variable [Platform]

/-- A document that holds a value at a path of identifiers matches each filter query that asks there
for the value. -/
theorem accepts_oneOf_of_getPath? {path : String}
    (hnames : ∀ segment ∈ splitPath path, Identifier.isValid segment) {document value : Json}
    (hvalue : document.getPath? path = some value) {values : List Json}
    (hholds : holds values value) :
    Filter.accepts document (.single path (.oneOf values)) = .ok true := by
  rw [Json.getPath?_eq_follow? hnames] at hvalue
  obtain ⟨other, hother, hsame⟩ := holds_iff.1 hholds
  have hequals : Filter.equalsTarget other (some value) :=
    Filter.equalsTarget_of_sameValue (sameValue_symm hsame)
  rw [Filter.accepts_oneOf (Identifier.isMarked_of_splitPath hnames), Except.ok.injEq]
  refine Filter.anyAmong_iff.2 ⟨other, hother, List.any_eq_true.2 ⟨some value, ?_, ?_⟩⟩
  · exact Filter.mem_candidates_of_follow? hvalue
  · simpa using hequals

/-- A document matches the query for some keys when its own key is one of them. -/
theorem accepts_keysQuery {schema : Schema} {graph : Graph} (hbuilt : Graph.build schema = .ok graph)
    {name : String} {document key : Json}
    (hkey : (graph.collection name).keyOf? document = some key) {keys : List Json}
    (hholds : holds keys key) :
    Filter.accepts document ((graph.collection name).keysQuery keys) = .ok true :=
  accepts_oneOf_of_getPath? (Graph.isValid_of_mem_key hbuilt name) hkey hholds

/-- A document whose key is a scalar matches exactly the queries for keys that hold it. -/
theorem accepts_keysQuery_of_isScalar {schema : Schema} {graph : Graph}
    (hbuilt : Graph.build schema = .ok graph) {name : String} {document key : Json}
    (hkey : (graph.collection name).keyOf? document = some key) (hscalar : key.isScalar)
    (keys : List Json) :
    Filter.accepts document ((graph.collection name).keysQuery keys) = .ok (holds keys key) := by
  have hmarked : isMarked (graph.collection name).key = false := Graph.isMarked_key hbuilt name
  have hcandidates : Filter.lookup document (graph.collection name).key = [some key] :=
    Filter.candidates_of_follow? (Graph.isValid_of_mem_key hbuilt name)
      (Graph.keyOf?_eq_follow? hbuilt name document ▸ hkey)
  rw [Collection.keysQuery, Filter.accepts_oneOf hmarked, hcandidates,
    Filter.anyAmong_of_isScalar hscalar]

namespace Collection

variable {collection : Collection}

omit [Platform] in
/-- Projections that keep the keys have the keys. -/
theorem filterMap_keyOf?_view
    (hvalid : ∀ segment ∈ splitPath collection.key, Identifier.isValid segment)
    (documents : List Json) :
    (documents.map (Store.view (some [collection.key]))).filterMap collection.keyOf? =
      documents.filterMap collection.keyOf? := by
  rw [List.filterMap_map]
  congr 1
  funext document
  exact Projection.getPath?_project hvalid document

/-- The keys of the documents that match are read from projections that keep the keys. -/
theorem answer_storedKeys {session : Session}
    (hvalid : ∀ segment ∈ splitPath collection.key, Identifier.isValid segment) {filter : Json}
    (hevaluates : Filter.Evaluates (session.store.documents collection.name) filter)
    (limit : Option Nat) :
    (collection.storedKeys filter limit).answer session =
      if session.refused.contains .find then
        .error (.store collection.name (.refused .find))
      else .ok ((Store.inRoom limit (Filter.matching (session.store.documents collection.name)
        filter)).filterMap collection.keyOf?) := by
  rw [storedKeys, (Access.Reads.find _ _ _).answer_bind fun _ => .pure _, Access.answer_find]
  split
  · rfl
  · rw [Store.find_eq_ok (Store.find_matching hevaluates), ok_bind, Access.answer_pure,
      filterMap_keyOf?_view hvalid, List.drop_zero]

/-- Only keys of stored documents are read. -/
theorem exists_of_storedKeys {session : Session}
    (hvalid : ∀ segment ∈ splitPath collection.key, Identifier.isValid segment) {filter : Json}
    {limit : Option Nat} {keys : List Json}
    (h : (collection.storedKeys filter limit).answer session = .ok keys) :
    ∀ key ∈ keys, ∃ document ∈ session.store.documents collection.name,
      collection.keyOf? document = some key := by
  rw [storedKeys, (Access.Reads.find _ _ _).answer_bind_eq_ok_iff fun _ => .pure _,
    Access.answer_find] at h
  obtain ⟨found, hfind, h⟩ := h
  cases h
  split at hfind
  case isTrue => cases hfind
  case isFalse =>
    intro key hkey
    obtain ⟨other, hother, hkey⟩ := List.mem_filterMap.1 hkey
    obtain ⟨document, hdocument, rfl⟩ := Store.mem_findIn (mapError_eq_ok_iff.1 hfind) other hother
    exact ⟨document, hdocument, (Projection.getPath?_project hvalid document).symm.trans hkey⟩

end Collection

end LinkedDocs
