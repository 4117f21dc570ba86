import LinkedDocs.Platform.Native
import LinkedDocs.Proofs.Removal.Completion
import LinkedDocs.Proofs.Removal.Rejection

namespace LinkedDocs

open Json

namespace DeletedKeys

theorem holds_freshKeys {keys : List Json} {key : Json} (hkey : key ∈ keys) :
    holds (freshKeys [] keys) key := by
  have hseen : holds ([] ++ freshKeys [] keys) key := holds_append_freshKeys hkey
  rwa [List.nil_append] at hseen

/-- A query for keys does the same as one for those of them that differ. -/
theorem anyAmong_freshKeys (candidates : List Filter.Candidate) (keys : List Json) :
    Filter.anyAmong candidates (freshKeys [] keys) = Filter.anyAmong candidates keys :=
  Bool.eq_iff_iff.2
    ⟨Filter.anyAmong_of_holds fun _ hkey => holds_of_mem (freshKeys_subset [] keys hkey),
      Filter.anyAmong_of_holds fun _ hkey => holds_freshKeys hkey⟩

end DeletedKeys

section

variable [Platform]

/-- A plan of nothing but its delete is carried out if the delete is. -/
theorem RemovalPlan.exists_runIn_of_deleteMany {session : Session}
    (hallowed : session.refused.contains .deleteMany = false) {collection : String} {query : Json}
    {count : Nat} {after : Store}
    (hdelete : session.store.deleteMany collection query = (.ok count, after))
    (deletedKeys : DeletedKeys) :
    ∃ count calls,
      (RemovalPlan.mk [] (.delete collection query) deletedKeys).execute.runIn session =
        (.ok count, { session with calls, store := after }) := by
  have hturns : (Operation.delete collection query).TurnsInto session.store after :=
    ⟨count, hdelete⟩
  refine exists_runIn_of_executes (fun operation hoperation => ?_) (.cons hturns (.nil after))
  obtain rfl := List.mem_singleton.1 hoperation
  exact hallowed

end

namespace Collection

variable {schema : Schema} {graph : Graph} {session : Session} {name : String}
  {filter normalized : Json}

section

variable [Platform]

/-- The plan of a delete that is not propagated is the delete of the keys that it found. -/
theorem answer_planDelete_of_not_propagate {collection : Collection} {found : List Json}
    (hnormalized : (collection.normalize filter).answer session = .ok normalized)
    (hfound : (collection.storedKeys normalized none).answer session = .ok found) :
    ∃ deletedKeys, (collection.planDelete filter ⟨false, false⟩).answer session =
      .ok ⟨[], .delete collection.name (collection.keysQuery (DeletedKeys.freshKeys [] found)),
        deletedKeys⟩ := by
  have houtcome (fuel : Nat) :
      (planFrom ⟨false, false⟩ fuel collection normalized false).outcome session {} =
        .ok (.delete collection.name (collection.keysQuery (DeletedKeys.freshKeys [] found)),
          { deletedKeys := (({} : DeletedKeys).mark collection.name found).2 }) := by
    rw [planFrom_eq]
    simp only [planReferences_of_not_propagate, pure_bind]
    rw [Planning.outcome_bind (.lift (reads_storedKeys _ _ _)) fun _ => .bind (.mark _ _) fun _ =>
      .pure _, Planning.outcome_lift (reads_storedKeys _ _ _)]
    change ((collection.storedKeys normalized none).answer session >>= _) >>= _ = _
    rw [hfound]
    rfl
  refine ⟨(({} : DeletedKeys).mark collection.name found).2, ?_⟩
  rw [answer_planDelete _ hnormalized, answer_planNormalized, houtcome]
  rfl

/-- The keys of the documents of a collection that match a filter query. -/
def matchingKeys (collection : Collection) (store : Store) (filter : Json) : List Json :=
  (Filter.matching (store.documents collection.name) filter).filterMap collection.keyOf?

/-- A document that has a key is found by its own key. -/
theorem anyAmong_matchingKeys (hbuilt : Graph.build schema = .ok graph) {document key : Json}
    {store : Store} (hdocument : document ∈ store.documents name)
    (hmatched : Filter.matched filter document)
    (hkey : (graph.collection name).keyOf? document = some key) :
    Filter.anyAmong (Filter.lookup document (graph.collection name).key)
      ((graph.collection name).matchingKeys store filter) := by
  have hmem : key ∈ (graph.collection name).matchingKeys store filter :=
    List.mem_filterMap.2 ⟨document, List.mem_filter.2 ⟨hdocument, hmatched⟩, hkey⟩
  have hfollow := hkey
  rw [Graph.keyOf?_eq_follow? hbuilt] at hfollow
  refine List.any_eq_true.2 ⟨some key, Filter.mem_candidates_of_follow? hfollow, ?_⟩
  exact List.any_eq_true.2 ⟨key, hmem, Filter.equalsTarget_of_sameValue (sameValue_refl key)⟩

theorem answer_storedKeys_eq_matchingKeys (hbuilt : Graph.build schema = .ok graph)
    (hfind : session.refused.contains .find = false)
    (hevaluates : Filter.Evaluates (session.store.documents name) filter) :
    ((graph.collection name).storedKeys filter none).answer session =
      .ok ((graph.collection name).matchingKeys session.store filter) := by
  have hvalid : ∀ segment ∈ splitPath (graph.collection name).key, Identifier.isValid segment :=
    Graph.isValid_of_mem_key hbuilt name
  have hevaluatesHere : Filter.Evaluates (session.store.documents (graph.collection name).name)
      filter := hevaluates
  rw [answer_storedKeys hvalid hevaluatesHere, hfind]
  rfl

/-- Where each matching document has a key and no other document is found by one of their keys, what
the keys of the matching documents do not find is what does not match. -/
theorem filter_not_anyAmong_matchingKeys (hbuilt : Graph.build schema = .ok graph) {store : Store}
    (hkeys : ∀ document ∈ store.documents name, Filter.matched filter document →
      ((graph.collection name).keyOf? document).isSome)
    (hothers : ∀ document ∈ store.documents name, Filter.matched filter document = false →
      Filter.anyAmong (Filter.lookup document (graph.collection name).key)
        ((graph.collection name).matchingKeys store filter) = false) :
    (store.documents name).filter (fun document =>
        !Filter.anyAmong (Filter.lookup document (graph.collection name).key)
          ((graph.collection name).matchingKeys store filter)) =
      (store.documents name).filter fun document => !Filter.matched filter document := by
  refine List.filter_congr fun document hdocument => congrArg not ?_
  cases hmatched : Filter.matched filter document with
  | true =>
    obtain ⟨key, hkey⟩ := Option.isSome_iff_exists.1 (hkeys document hdocument hmatched)
    exact anyAmong_matchingKeys hbuilt hdocument hmatched hkey
  | false => exact hothers document hdocument hmatched

/-- A delete that is not propagated succeeds and removes the documents that the query for the keys
of the matching ones finds. These are the matching documents alone if each of them has a key and no
other document is found by one of their keys. -/
theorem exists_delete_of_not_propagate (hbuilt : Graph.build schema = .ok graph)
    (hfind : session.refused.contains .find = false)
    (hdelete : session.refused.contains .deleteMany = false)
    (hnormalized : ((graph.collection name).normalize filter).answer session = .ok normalized)
    (hevaluates : Filter.Evaluates (session.store.documents name) normalized) :
    ∃ count after,
      ((graph.collection name).delete filter ⟨false, false⟩).runIn session = (.ok count, after) ∧
      (∀ other, other ≠ name → after.store.documents other = session.store.documents other) ∧
      after.store.documents name = (session.store.documents name).filter (fun document =>
        !Filter.anyAmong (Filter.lookup document (graph.collection name).key)
          ((graph.collection name).matchingKeys session.store normalized)) ∧
      ((∀ document ∈ session.store.documents name, Filter.matched normalized document →
          ((graph.collection name).keyOf? document).isSome) →
        (∀ document ∈ session.store.documents name, Filter.matched normalized document = false →
          Filter.anyAmong (Filter.lookup document (graph.collection name).key)
            ((graph.collection name).matchingKeys session.store normalized) = false) →
        after.store.documents name =
          (session.store.documents name).filter fun document =>
            !Filter.matched normalized document) := by
  obtain ⟨deletedKeys, hplan⟩ := answer_planDelete_of_not_propagate hnormalized
    (answer_storedKeys_eq_matchingKeys hbuilt hfind hevaluates)
  obtain ⟨calls, hrun⟩ := (reads_planDelete _ filter ⟨false, false⟩).exists_runIn_of_answer hplan
  have hmarked : isMarked (graph.collection name).key = false := Graph.isMarked_key hbuilt name
  obtain ⟨deleted, after, hafter⟩ := Store.exists_deleteMany
    (Filter.evaluates_oneOf hmarked (session.store.documents name)
      (DeletedKeys.freshKeys [] ((graph.collection name).matchingKeys session.store normalized)))
  obtain ⟨-, hdocuments⟩ := Store.documents_deleteMany hafter
  let planned : Session := { session with calls }
  have hallowed : planned.refused.contains .deleteMany = false := hdelete
  obtain ⟨count, callsAfter, hcount⟩ :=
    RemovalPlan.exists_runIn_of_deleteMany hallowed hafter deletedKeys
  have hleft : after.documents name = (session.store.documents name).filter fun document =>
      !Filter.anyAmong (Filter.lookup document (graph.collection name).key)
        ((graph.collection name).matchingKeys session.store normalized) := by
    rw [hdocuments, if_pos rfl]
    refine List.filter_congr fun document _ => ?_
    rw [Filter.matched_of_accepts (Filter.accepts_oneOf hmarked document _),
      DeletedKeys.anyAmong_freshKeys]
  refine ⟨count, { planned with calls := callsAfter, store := after }, ?_,
    fun other hother => (hdocuments other).trans (if_neg hother), hleft, fun hkeys hothers =>
      hleft.trans (filter_not_anyAmong_matchingKeys hbuilt hkeys hothers)⟩
  change ((graph.collection name).planDelete filter ⟨false, false⟩ >>=
    RemovalPlan.execute).runIn session = _
  rw [Access.runIn_bind, hrun]
  exact hcount

end

/-- Books under their numbers. -/
def isbnSchema : Schema where
  collections := .ofList [("books", { key := some "isbn" })]

def isbnBook (id isbn title : String) : Json :=
  .object [("_id", .string id), ("isbn", .string isbn), ("title", .string title)]

def isbnSession (books : List Json) : Session where
  store := { collections := .ofList [("books", books)] }

theorem answer_normalize_isbn (filter : Json) (session : Session) :
    ((isbnSchema.graph.collection "books").normalize filter).answer session = .ok filter := by
  rw [normalize, if_pos (by decide)]
  rfl

theorem evaluates_title (documents : List Json) (title : String) :
    Filter.Evaluates documents (.single "title" (.string title)) :=
  fun document _ => ⟨_, Filter.accepts_value (by decide) document rfl⟩

def numberedBooks : List Json :=
  [isbnBook "1" "x" "a", isbnBook "2" "y" "b", isbnBook "3" "z" "a"]

/-- Two books with the same number and one without a number. -/
def unnumberedBooks : List Json :=
  [isbnBook "1" "x" "a", isbnBook "2" "x" "b",
    .object [("_id", .string "3"), ("title", .string "a")]]

theorem exists_delete_numberedBooks : ∃ count after,
    ((isbnSchema.graph.collection "books").delete (.single "title" (.string "a"))
      ⟨false, false⟩).runIn (isbnSession numberedBooks) = (.ok count, after) ∧
    after.store.documents "books" = [isbnBook "2" "y" "b"] := by
  obtain ⟨count, after, hrun, -, -, hleft⟩ := exists_delete_of_not_propagate
    (isbnSchema.build_graph rfl) (by rfl) (by rfl) (answer_normalize_isbn (.single "title" (.string "a"))
      (isbnSession numberedBooks)) (evaluates_title _ "a")
  refine ⟨count, after, hrun, (hleft (by decide) (by decide)).trans ?_⟩
  change List.filter _ [isbnBook "1" "x" "a", isbnBook "2" "y" "b", isbnBook "3" "z" "a"] = _
  rw [List.filter_cons_of_neg (by decide), List.filter_cons_of_pos (by decide),
    List.filter_cons_of_neg (by decide), List.filter_nil]

/-- The book that shares its number with a matching one is removed with it, and the matching book
without a number stays. -/
theorem documents_ne_of_delete_unnumberedBooks :
    ((isbnSchema.graph.collection "books").normalize (.single "title" (.string "a"))).answer
      (isbnSession unnumberedBooks) = .ok (.single "title" (.string "a")) ∧
    Filter.Evaluates ((isbnSession unnumberedBooks).store.documents "books")
      (.single "title" (.string "a")) ∧
    ∃ count after,
      ((isbnSchema.graph.collection "books").delete (.single "title" (.string "a"))
        ⟨false, false⟩).runIn (isbnSession unnumberedBooks) = (.ok count, after) ∧
      after.store.documents "books" ≠
        ((isbnSession unnumberedBooks).store.documents "books").filter fun document =>
          !Filter.matched (.single "title" (.string "a")) document := by
  refine ⟨answer_normalize_isbn _ _, evaluates_title _ "a", ?_⟩
  have hdiffers : (match ((isbnSchema.graph.collection "books").delete (.single "title" (.string "a"))
      ⟨false, false⟩).runIn (isbnSession unnumberedBooks) with
    | (.ok _, after) => !sameItems (after.store.documents "books")
        (((isbnSession unnumberedBooks).store.documents "books").filter fun document =>
          !Filter.matched (.single "title" (.string "a")) document)
    | (.error _, _) => false) = true := by decide
  cases hrun : ((isbnSchema.graph.collection "books").delete (.single "title" (.string "a"))
      ⟨false, false⟩).runIn (isbnSession unnumberedBooks) with
  | mk result after =>
    rw [hrun] at hdiffers
    cases result with
    | error => cases hdiffers
    | ok count =>
      refine ⟨count, after, rfl, fun hsame => ?_⟩
      dsimp only at hdiffers
      rw [hsame, Bool.not_eq_true', ← Bool.not_eq_true] at hdiffers
      exact hdiffers (sameItems_iff.2 rfl)

end Collection

end LinkedDocs
