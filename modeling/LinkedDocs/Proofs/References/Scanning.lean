import LinkedDocs.Platform.Native
import LinkedDocs.Proofs.Collection.Keys
import LinkedDocs.Proofs.References.Paging

namespace LinkedDocs

open Json

/-- The values that are equal to none before them. -/
def Json.firstOfEach : List Json → List Json
  | [] => []
  | value :: rest => value :: (firstOfEach rest).filter fun other => !sameValue value other

theorem Json.distinctFrom_eq_firstOfEach (seen values : List Json) :
    distinctFrom seen values = seen ++ (firstOfEach values).filter fun value => !holds seen value := by
  induction values generalizing seen with
  | nil => rw [distinctFrom, firstOfEach, List.filter_nil, List.append_nil]
  | cons first rest ih =>
    rw [distinctFrom, firstOfEach, List.filter_cons, List.filter_filter]
    split
    case isTrue hseen =>
      -- what is equal to a value that was seen is left out already
      have hfilter : ∀ value ∈ firstOfEach rest,
          (!holds seen value) = (!holds seen value && !sameValue first value) := by
        intro value _
        cases hsame : sameValue first value with
        | false => simp
        | true => simp [← holds_congr hsame seen, hseen]
      rw [ih, List.filter_congr hfilter, if_neg (by simp [hseen])]
    case isFalse hseen =>
      have hfilter : ∀ value ∈ firstOfEach rest,
          (!holds (seen ++ [first]) value) = (!holds seen value && !sameValue first value) := by
        intro value _
        simp [holds]
      rw [ih, List.filter_congr hfilter, if_pos (by simpa using hseen), List.append_assoc,
        List.singleton_append]

theorem Json.distinct_eq_firstOfEach (values : List Json) : distinct values = firstOfEach values := by
  rw [distinct, distinctFrom_eq_firstOfEach, List.nil_append]
  exact List.filter_eq_self.2 fun _ _ => rfl

/-- Values for each name for which there are any, with the calls that collect them. -/
theorem performs_collectNonempty {α : Type} {session : Session} (isEmpty : α → Bool)
    {collect : String → Access α} {calls : String → List StoreCall} {found : String → α}
    (h : ∀ name, (collect name).Performs session (calls name) (found name)) (names : List String) :
    ∃ result, (collectNonempty isEmpty collect names).Performs session (names.flatMap calls) result ∧
      ∀ name value, result.get? name = some value ↔
        name ∈ names ∧ isEmpty value = false ∧ found name = value := by
  induction names with
  | nil =>
    refine ⟨.empty, Access.performs_pure _, fun name value => ?_⟩
    simp [NameMap.get?_empty]
  | cons first rest ih =>
    obtain ⟨others, hothers, hget⟩ := ih
    refine ⟨if isEmpty (found first) then others else others.insert first (found first), ?_, ?_⟩
    · rw [List.flatMap_cons, collectNonempty]
      exact (h first).bind (hothers.map fun others =>
        if isEmpty (found first) then others else others.insert first (found first))
    · intro name value
      by_cases hempty : isEmpty (found first)
      · rw [if_pos hempty, hget, List.mem_cons]
        grind
      · rw [if_neg hempty, NameMap.get?_insert, List.mem_cons]
        split
        case isTrue heq => grind
        case isFalse hne => grind

/-- Whether a value is the key of no document of a collection. -/
def Graph.isUnknown (graph : Graph) (store : Store) (name : String) (value : Json) : Bool :=
  !holds ((store.documents name).filterMap (graph.collection name).keyOf?) value

/-- The values of a foreign key, in the first documents of a collection, that are the key of no
document of the target collection, each where it comes first. -/
def Graph.danglingValues (graph : Graph) (store : Store) (limit : Option Nat) (name : String)
    (foreignKey : ForeignKey) : List Json :=
  (Json.firstOfEach ((Store.inRoom limit (store.documents name)).flatMap fun document =>
    document.valuesAt foreignKey.path)).filter (graph.isUnknown store foreignKey.collection)

namespace Collection

variable [Platform]
variable {schema : Schema} {graph : Graph} {session : Session}

theorem performs_storedKeys (hrefused : session.refused.contains .find = false)
    {collection : Collection}
    (hvalid : ∀ segment ∈ splitPath collection.key, Identifier.isValid segment) {filter : Json}
    (hevaluates : Filter.Evaluates (session.store.documents collection.name) filter) :
    (collection.storedKeys filter none).Performs session
      [⟨collection.name, .find filter { projection := some [collection.key] }⟩]
      ((Filter.matching (session.store.documents collection.name) filter).filterMap
        collection.keyOf?) := by
  have hfind := Store.find_eq_ok (Store.find_matching hevaluates)
    { projection := some [collection.key] }
  have hkeys := (Access.performs_find hrefused hfind).map fun documents =>
    documents.filterMap collection.keyOf?
  rwa [filterMap_keyOf?_view hvalid] at hkeys

/-- The query for some keys misses no document with one of them. -/
theorem holds_matching_keysQuery (hbuilt : Graph.build schema = .ok graph) {name : String}
    {documents values : List Json} {value : Json} (hmem : value ∈ values) :
    holds ((Filter.matching documents ((graph.collection name).keysQuery values)).filterMap
      (graph.collection name).keyOf?) value =
        holds (documents.filterMap (graph.collection name).keyOf?) value := by
  rw [Bool.eq_iff_iff]
  constructor
  · refine holds_mono fun key hkey => ?_
    obtain ⟨document, hdocument, hkeyOf⟩ := List.mem_filterMap.1 hkey
    exact List.mem_filterMap.2 ⟨document, (Filter.mem_matching_iff.1 hdocument).1, hkeyOf⟩
  · intro h
    obtain ⟨key, hkey, hsame⟩ := holds_iff.1 h
    obtain ⟨document, hdocument, hkeyOf⟩ := List.mem_filterMap.1 hkey
    have hheld : holds values key := holds_iff.2 ⟨value, hmem, sameValue_symm hsame⟩
    have hmatches := Filter.mem_matching_iff.2
      ⟨hdocument, accepts_keysQuery hbuilt hkeyOf hheld⟩
    exact holds_iff.2 ⟨key, List.mem_filterMap.2 ⟨document, hmatches, hkeyOf⟩, hsame⟩

theorem exists_unknownKeys (hbuilt : Graph.build schema = .ok graph)
    (hrefused : session.refused.contains .find = false) (name : String) (values : List Json) :
    ∃ calls, ((graph.collection name).unknownKeys values).Performs session calls
        (values.filter (graph.isUnknown session.store name)) ∧
      ∀ other, calls.filterMap (StoreCall.page? other) = [] := by
  by_cases hempty : values = []
  · subst hempty
    exact ⟨[], Access.performs_pure _, fun _ => rfl⟩
  have hvalid : ∀ segment ∈ splitPath (graph.collection name).key, Identifier.isValid segment :=
    Graph.isValid_of_mem_key hbuilt name
  have hevaluates := Filter.evaluates_oneOf (Graph.isMarked_key hbuilt name)
    (session.store.documents name) values
  have hkeys := (performs_storedKeys hrefused hvalid hevaluates).map fun existing =>
    values.filter fun value => !holds existing value
  have hfilter : values.filter (graph.isUnknown session.store name) =
      values.filter fun value => !holds ((Filter.matching (session.store.documents name)
        ((graph.collection name).keysQuery values)).filterMap (graph.collection name).keyOf?) value :=
    List.filter_congr fun value hvalue => by
      rw [holds_matching_keysQuery hbuilt hvalue, Graph.isUnknown]
  have hunknown : (graph.collection name).unknownKeys values =
      ((graph.collection name).storedKeys ((graph.collection name).keysQuery values) none >>=
        fun existing => pure (values.filter fun value => !holds existing value)) := by
    rw [unknownKeys, if_neg (by simpa using hempty)]
  rw [hunknown, hfilter]
  exact ⟨_, hkeys, fun _ => rfl⟩

/-- The paths that the documents of a collection are reduced to for the scan. -/
def scanProjection (collection : Collection) : List String :=
  collection.foreignKeys.values.map fun foreignKey => pathKey foreignKey.path

/-- The part of the scan that looks for the values of one foreign key in the documents read. -/
def danglingAt (collection : Collection) (documents : List Json) (key : String) :
    Access (List Json) :=
  match collection.foreignKeys.get? key with
  | none => return []
  | some foreignKey =>
    (collection.target foreignKey).unknownKeys
      (Json.distinct (documents.flatMap fun document => document.valuesAt foreignKey.path))

theorem danglingKeys_eq (collection : Collection) (options : ScanOptions) :
    collection.danglingKeys options = (do
      let session ← get
      let documents ← collection.scanPages options collection.scanProjection
        ((session.store.documents collection.name).length + 1) 0
      collectNonempty List.isEmpty (collection.danglingAt documents)
        collection.foreignKeys.keys) :=
  rfl

omit [Platform] in
/-- The values of a foreign key are read from projections that keep them. -/
theorem flatMap_valuesAt_project (hbuilt : Graph.build schema = .ok graph) {name key : String}
    {foreignKey : ForeignKey}
    (hforeign : (graph.links name).foreignKeys.get? key = some foreignKey) (documents : List Json) :
    ((documents.map (Projection.project (graph.collection name).scanProjection)).flatMap
        fun document => document.valuesAt foreignKey.path) =
      documents.flatMap fun document => document.valuesAt foreignKey.path := by
  have hcompiled := Graph.compiled hbuilt hforeign
  have hsplit := hcompiled.splitPath_name
  rw [hcompiled.name_eq] at hsplit
  have hmem : pathKey foreignKey.path ∈ (graph.collection name).scanProjection :=
    List.mem_map_of_mem (NameMap.mem_values_of_get? hforeign)
  rw [List.flatMap_map]
  exact List.flatMap_congr fun document _ => Projection.valuesAt_project hmem hsplit document

theorem exists_danglingAt (hbuilt : Graph.build schema = .ok graph)
    (hrefused : session.refused.contains .find = false) (limit : Option Nat) (name key : String) :
    ∃ calls, ((graph.collection name).danglingAt
        ((Store.inRoom limit (session.store.documents name)).map
          (Projection.project (graph.collection name).scanProjection)) key).Performs session calls
        (((graph.links name).foreignKeys.get? key).elim []
          (graph.danglingValues session.store limit name)) ∧
      ∀ other, calls.filterMap (StoreCall.page? other) = [] := by
  rw [danglingAt]
  change ∃ calls, Access.Performs (match (graph.links name).foreignKeys.get? key with
    | none => _
    | some foreignKey => _) _ _ _ ∧ _
  cases hforeign : (graph.links name).foreignKeys.get? key with
  | none => exact ⟨[], Access.performs_pure [], fun _ => rfl⟩
  | some foreignKey =>
    simp only [flatMap_valuesAt_project hbuilt hforeign, Json.distinct_eq_firstOfEach]
    exact exists_unknownKeys hbuilt hrefused foreignKey.collection _

/-- The dangling values of each foreign key of a collection, after one scan of its documents. -/
theorem exists_danglingKeys (hbuilt : Graph.build schema = .ok graph)
    (hrefused : session.refused.contains .find = false) (options : ScanOptions) (name : String) :
    ∃ calls found, ((graph.collection name).danglingKeys options).Performs session calls found ∧
      (∀ key values, found.get? key = some values ↔ values ≠ [] ∧
        ∃ foreignKey, (graph.links name).foreignKeys.get? key = some foreignKey ∧
          graph.danglingValues session.store options.limit name foreignKey = values) ∧
      ScansOnce options.limit (session.store.documents name).length
        (calls.filterMap (StoreCall.page? name)) ∧
      ∀ other, name ≠ other → calls.filterMap (StoreCall.page? other) = [] := by
  obtain ⟨pages, hpages, hscan⟩ := exists_scan hrefused (graph.collection name) options
    (graph.collection name).scanProjection
  choose calls hcalls hother using exists_danglingAt hbuilt hrefused options.limit name
  obtain ⟨found, hfound, hget⟩ :=
    performs_collectNonempty List.isEmpty hcalls (graph.links name).foreignKeys.keys
  have hnone (other : String) : ((graph.links name).foreignKeys.keys.flatMap calls).filterMap
      (StoreCall.page? other) = [] := by
    rw [List.filterMap_flatMap]
    exact List.flatMap_eq_nil_iff.2 fun key _ => hother key other
  rw [danglingKeys_eq]
  refine ⟨_, found, Access.Performs.get_bind fun before => hscan.bind hfound, ?_, ?_, ?_⟩
  · intro key values
    rw [hget, NameMap.mem_keys_iff]
    constructor
    · rintro ⟨⟨foreignKey, hforeign⟩, hnonempty, hvalues⟩
      rw [hforeign] at hvalues
      exact ⟨by simpa using hnonempty, foreignKey, hforeign, hvalues⟩
    · rintro ⟨hnonempty, foreignKey, hforeign, hvalues⟩
      refine ⟨⟨foreignKey, hforeign⟩, by simpa using hnonempty, ?_⟩
      rwa [hforeign]
  · have hname : (graph.collection name).name = name := rfl
    rwa [List.filterMap_append, hnone, filterMap_page?_pageCall, if_pos hname, List.append_nil]
  · intro other hne
    have hname : (graph.collection name).name ≠ other := hne
    rw [List.filterMap_append, hnone, filterMap_page?_pageCall, if_neg hname, List.append_nil]

end Collection

namespace Graph

variable {schema : Schema} {graph : Graph} {session : Session}

theorem mem_scanned_iff {name : String} :
    name ∈ (graph.collections.filter fun _ links => !links.foreignKeys.isEmpty).keys ↔
      (graph.links name).foreignKeys.isEmpty = false := by
  rw [NameMap.mem_keys_iff, links, get?]
  simp only [NameMap.get?_filter]
  cases graph.collections.get? name with
  | none => simp [NameMap.isEmpty, NameMap.empty]
  | some links => simp

theorem flatMap_eq_of_nodup {α : Type} {names : List String} (hnodup : names.Nodup) {name : String}
    (hmem : name ∈ names) {f : String → List α} (hother : ∀ other, other ≠ name → f other = []) :
    names.flatMap f = f name := by
  obtain ⟨front, back, rfl⟩ := List.append_of_mem hmem
  have hapart : name ∉ front ∧ name ∉ back := by
    have hmiddle := List.nodup_middle.1 hnodup
    simpa using (List.nodup_cons.1 hmiddle).1
  have hnone {others : List String} (h : name ∉ others) : others.flatMap f = [] :=
    List.flatMap_eq_nil_iff.2 fun other hmem => hother other fun heq => h (heq ▸ hmem)
  rw [List.flatMap_append, List.flatMap_cons, hnone hapart.1, hnone hapart.2, List.nil_append,
    List.append_nil]

section

variable [Platform]

/-- The scan for dangling keys reports, for each foreign key, just the values in the first documents
up to the limit that are the key of no document of the target collection, the first of each kind,
and it reads each of these documents once. -/
theorem exists_findDanglingKeys (hbuilt : build schema = .ok graph)
    (hrefused : session.refused.contains .find = false) (options : ScanOptions) :
    ∃ (result : ValuesByForeignKey) (calls : List StoreCall),
      (graph.findDanglingKeys options).runIn session =
        (.ok result, { session with calls := calls.reverse ++ session.calls }) ∧
      (∀ name key values, (∃ found, result.get? name = some found ∧ found.get? key = some values) ↔
        values ≠ [] ∧ ∃ foreignKey, (graph.links name).foreignKeys.get? key = some foreignKey ∧
          graph.danglingValues session.store options.limit name foreignKey = values) ∧
      (∀ name found, result.get? name = some found → ∃ key values, found.get? key = some values) ∧
      ∀ name, (graph.links name).foreignKeys.isEmpty = false →
        ScansOnce options.limit (session.store.documents name).length
          (calls.filterMap (StoreCall.page? name)) := by
  choose calls found hperforms hvalues hscan hother using
    Collection.exists_danglingKeys hbuilt hrefused options
  obtain ⟨result, hresult, hget⟩ := performs_collectNonempty NameMap.isEmpty hperforms
    (graph.collections.filter fun _ links => !links.foreignKeys.isEmpty).keys
  refine ⟨result, _, hresult.runIn, ?_, ?_, ?_⟩
  · intro name key values
    rw [← hvalues]
    constructor
    · rintro ⟨_, hname, hkey⟩
      obtain ⟨-, -, rfl⟩ := (hget _ _).1 hname
      exact hkey
    · intro hkey
      refine ⟨found name, (hget _ _).2 ⟨?_, NameMap.isEmpty_eq_false_iff.2 ⟨key, values, hkey⟩, rfl⟩,
        hkey⟩
      obtain ⟨-, foreignKey, hforeign, -⟩ := (hvalues _ _ _).1 hkey
      exact mem_scanned_iff.2 (NameMap.isEmpty_eq_false_iff.2 ⟨key, foreignKey, hforeign⟩)
  · intro name others hname
    exact NameMap.isEmpty_eq_false_iff.1 ((hget _ _).1 hname).2.1
  · intro name hforeign
    rw [List.filterMap_flatMap, flatMap_eq_of_nodup (NameMap.nodup_keys _)
      (mem_scanned_iff.2 hforeign) fun other hne => hother other name hne]
    exact hscan name

end

/-- Books whose authors need not be stored. -/
def backlistSchema : Schema where
  collections := .ofList [
    ("books", { foreignKeys := .ofList [("authors.$", { collection := some "authors" })] })]

def backlistSession : Session where
  store := { collections := .ofList [
    ("authors", [.object [("_id", .string "a")]]),
    ("books", [
      .object [("_id", .string "b"), ("authors", .array [.string "x", .string "a"])],
      .object [("_id", .string "c"), ("authors", .array [.string "y", .string "x"])],
      .object [("_id", .string "d"), ("authors", .array [.string "z"])]])] }

/-- The third book is not read, so its author is not reported. -/
theorem exists_findDanglingKeys_archive :
    ∃ (result : ValuesByForeignKey) (calls : List StoreCall),
      (backlistSchema.graph.findDanglingKeys ⟨0, some 2⟩).runIn backlistSession =
        (.ok result, { backlistSession with calls := calls.reverse ++ backlistSession.calls }) ∧
      (∃ found, result.get? "books" = some found ∧
        found.get? "authors" = some [.string "x", .string "y"]) ∧
      ScansOnce (some 2) 3 (calls.filterMap (StoreCall.page? "books")) := by
  have hrefused : backlistSession.refused.contains .find = false := rfl
  obtain ⟨result, calls, hrun, hvalues, -, hscan⟩ :=
    exists_findDanglingKeys (backlistSchema.build_graph rfl) hrefused ⟨0, some 2⟩
  have hforeign : (backlistSchema.graph.links "books").foreignKeys.get? "authors" =
      some ⟨["authors", "$"], "authors", .verify, .bypass, none⟩ := rfl
  have hdangling : backlistSchema.graph.danglingValues backlistSession.store (some 2) "books"
      ⟨["authors", "$"], "authors", .verify, .bypass, none⟩ =
        [.string "x", .string "y"] := rfl
  have hfound := (hvalues "books" "authors" [.string "x", .string "y"]).2
    ⟨List.cons_ne_nil _ _, _, hforeign, hdangling⟩
  exact ⟨result, calls, hrun, hfound, hscan "books" rfl⟩

end Graph

end LinkedDocs
