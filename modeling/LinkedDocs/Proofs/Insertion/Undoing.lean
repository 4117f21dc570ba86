import LinkedDocs.Platform.Native
import LinkedDocs.Proofs.Insertion.Recording

/-!
What rolling back deletes: the documents that are found by a recorded key. Those that were stored
before the call stay, in front and in their order, as long as none of them is found by such a key. A
collection whose keys are ids does not store a nested document with the id of another one, so there
it is enough that ids are no arrays.
-/

namespace LinkedDocs

open Json Store

/-- Whether none of the stored documents can be found by a recorded key. -/
structure Dependency.Spares (graph : Graph) (store : Store) (dependency : Dependency) : Prop where
  isObject_eq : dependency.key.isObject = false
  keyedOnce : (graph.collection dependency.collection).key = idField →
    ∀ document ∈ store.documents dependency.collection,
      (graph.collection dependency.collection).KeyedOnce document
  not_finds : (graph.collection dependency.collection).key ≠ idField →
    ¬(graph.collection dependency.collection).Finds store dependency.key

/-- The nested documents that an insertion records, whether it succeeds or fails. -/
def Insertion.recorded {α : Type} (insertion : Insertion α) (session : Session) : List Dependency :=
  (insertion.run.run { session }).2.dependencies

section

variable [Platform]

/-- A call that inserts or replaces documents and does not do so, with the nested documents that it
recorded and the session that it leaves. -/
inductive Collection.Fails (collection : Collection) (session : Session) :
    List Dependency → Session → Prop
  | insert {document : Json} {error : Error} {after : Session}
      (hrun : (collection.insert document).runIn session = (.error error, after)) :
      Fails collection session ((collection.inserting [document]).recorded session) after
  | insertMany {documents : List Json} {error : Error} {after : Session}
      (hrun : (collection.insertMany documents).runIn session = (.error error, after)) :
      Fails collection session ((collection.inserting documents).recorded session) after
  | replace {filter document : Json} {result : Except Error (Option Replacement)} {after : Session}
      (hrun : (collection.replace filter document).runIn session = (result, after))
      (hresult : ∀ replacement, result ≠ .ok (some replacement)) :
      Fails collection session ((collection.replacing filter document).recorded session) after

namespace Store

/-- A delete keeps the documents in front that do not match. -/
theorem prefix_deleteMany {store : Store} {name other : String} {filter : Json} {front : List Json}
    (hfront : front <+: store.documents name)
    (hunmatched : name = other → ∀ document ∈ front, Filter.accepts document filter = .ok false) :
    front <+: (store.deleteMany other filter).2.documents name := by
  cases hdelete : store.deleteMany other filter with
  | mk result after =>
    cases result with
    | error error =>
      rw [(deleteMany_eq_error hdelete).2]
      exact hfront
    | ok count =>
      rw [(documents_deleteMany hdelete).2]
      split
      case isFalse => exact hfront
      case isTrue hname =>
        have hkept : (front.filter fun document => !Filter.matched filter document) = front := by
          refine List.filter_eq_self.2 fun document hdocument => ?_
          rw [Filter.matched_of_accepts (hunmatched hname document hdocument)]
          rfl
        rw [← hname, ← hkept]
        exact hfront.filter _

theorem prefix_runIn_deleteMany {session : Session} {name other : String} {filter : Json}
    {front : List Json} (hfront : front <+: session.store.documents name)
    (hunmatched : name = other → ∀ document ∈ front, Filter.accepts document filter = .ok false) :
    front <+: ((Access.deleteMany other filter).runIn session).2.store.documents name := by
  rw [Access.deleteMany, Access.runIn_call]
  split
  · exact hfront
  · exact prefix_deleteMany hfront hunmatched

end Store

theorem prefix_deleteDependencies {graph : Graph} {name : String} {front : List Json}
    {dependencies : List Dependency}
    (hunmatched : ∀ dependency ∈ dependencies, name = dependency.collection →
      ∀ document ∈ front, Filter.accepts document
        ((graph.collection dependency.collection).keyQuery dependency.key) = .ok false)
    {session : Session} (hfront : front <+: session.store.documents name) :
    front <+: ((deleteDependencies graph dependencies).runIn session).2.store.documents name := by
  induction dependencies generalizing session with
  | nil => exact hfront
  | cons dependency rest ih =>
    obtain ⟨hfirst, hrest⟩ := List.forall_mem_cons.1 hunmatched
    let collection := graph.collection dependency.collection
    have hmiddle : front <+: ((Access.deleteMany collection.name
        (collection.keyQuery dependency.key)).runIn session).2.store.documents name :=
      prefix_runIn_deleteMany hfront hfirst
    rw [deleteDependencies, Access.runIn_bind]
    cases hdelete : (Access.deleteMany collection.name
        (collection.keyQuery dependency.key)).runIn session with
    | mk result middle =>
      rw [hdelete] at hmiddle
      cases result with
      | error error => exact hmiddle
      | ok count => exact ih hrest hmiddle

section Spares

variable {schema : Schema} {graph : Graph}

/-- The query for a recorded key finds none of the documents that were stored before. -/
theorem Dependency.Spares.accepts_eq (hbuilt : Graph.build schema = .ok graph) {store : Store}
    {entry : String × Json} {dependency : Dependency} (h : dependency.Spares graph store)
    (hlocates : graph.Locates entry dependency)
    (hdiffer : ∀ other ∈ store.documents entry.1, Differ (idOf other) (idOf entry.2)) :
    ∀ other ∈ store.documents dependency.collection, Filter.accepts other
      ((graph.collection dependency.collection).keyQuery dependency.key) = .ok false := by
  obtain ⟨name, stored⟩ := entry
  obtain ⟨collection, key⟩ := dependency
  obtain ⟨rfl, hkey⟩ := hlocates
  have hmarked : isMarked (graph.collection collection).key = false :=
    Graph.isMarked_key hbuilt collection
  intro other hother
  rw [Collection.accepts_keyQuery hmarked h.isObject_eq, Except.ok.injEq]
  by_cases hid : (graph.collection collection).key = idField
  · have hown : key = idOf stored := by
      rw [← Collection.keyOrNull_eq_idOf hid, Collection.keyOrNull, hkey, Option.getD_some]
    have hapart : (idOf other).sameValue key = false := hown ▸ hdiffer other hother
    rw [(h.keyedOnce hid other hother).anyAmong_eq, Collection.keyOrNull_eq_idOf hid, holds,
      List.any_cons, List.any_nil, Bool.or_false, sameValue_comm]
    exact hapart
  · refine Bool.eq_false_iff.2 fun hany => h.not_finds hid ⟨other, hother, hany⟩

/-- Rolling back an insertion keeps the documents that were stored before it. -/
theorem Recorded.prefix_rollBack (hbuilt : Graph.build schema = .ok graph) {session : Session}
    {state : InsertionState} {added : List (String × Json)} {orphan? : Option (String × Json)}
    (h : Recorded graph { session } state added orphan?)
    (hspares : ∀ dependency ∈ state.dependencies, dependency.Spares graph session.store)
    (name : String) : session.store.documents name <+:
      ((rollBack graph state.dependencies).runIn state.session).2.store.documents name := by
  have hfront : session.store.documents name <+: state.session.store.documents name := by
    rw [h.adds]
    exact List.prefix_append _ _
  refine prefix_deleteDependencies (fun dependency hdependency hname => ?_) hfront
  subst hname
  have hmem : dependency ∈ state.dependencies := List.mem_reverse.1 hdependency
  obtain ⟨recorded, hrecorded, hlocates⟩ := h.exists_recorded
  rw [hrecorded] at hmem
  obtain ⟨entry, hentry, hlocated⟩ := exists_of_forall₂ hlocates dependency hmem
  exact (hspares dependency (List.mem_reverse.1 hdependency)).accepts_eq hbuilt hlocated
    (h.differ entry (List.mem_append_left _ hentry))

end Spares

end

namespace Collection

variable {schema : Schema} {graph : Graph} {name : String} {session after : Session}

section

variable [Platform]

theorem prefix_documents_insertMany (hbuilt : Graph.build schema = .ok graph) {documents : List Json}
    {error : Error}
    (hrun : ((graph.collection name).insertMany documents).runIn session = (.error error, after))
    (hspares : ∀ dependency ∈ ((graph.collection name).inserting documents).recorded session,
      dependency.Spares graph session.store) (other : String) :
    session.store.documents other <+: after.store.documents other := by
  rw [insertMany_eq] at hrun
  have hsettle := Access.runIn_map_eq_error hrun
  cases hinsert : ((graph.collection name).inserting documents).run.run { session } with
  | mk result state =>
    rw [Insertion.recorded, hinsert] at hspares
    cases result with
    | ok stored => cases (runIn_settle_of_ok hinsert).symm.trans hsettle
    | error stopped =>
      cases (runIn_settle_of_error hinsert).symm.trans hsettle
      obtain ⟨added, orphan?, hrecorded, -⟩ := exists_recorded_inserting hinsert
      exact hrecorded.prefix_rollBack hbuilt hspares other

theorem prefix_documents_replace (hbuilt : Graph.build schema = .ok graph) {filter document : Json}
    {result : Except Error (Option Replacement)}
    (hrun : ((graph.collection name).replace filter document).runIn session = (result, after))
    (hresult : ∀ replacement, result ≠ .ok (some replacement))
    (hspares : ∀ dependency ∈ ((graph.collection name).replacing filter document).recorded session,
      dependency.Spares graph session.store) (other : String) :
    session.store.documents other <+: after.store.documents other := by
  rw [replace_eq, Access.runIn_bind] at hrun
  cases hreplace : ((graph.collection name).replacing filter document).run.run { session } with
  | mk outcome state =>
    rw [Insertion.recorded, hreplace] at hspares
    have hback (hnone : ∀ replacement, outcome ≠ .ok (some replacement)) :
        session.store.documents other <+:
          ((rollBack graph state.dependencies).runIn state.session).2.store.documents other := by
      obtain ⟨added, orphan?, hrecorded, -⟩ := exists_recorded_replacing hreplace hnone
      exact hrecorded.prefix_rollBack hbuilt hspares other
    cases outcome with
    | error error =>
      rw [runIn_settle_of_error hreplace] at hrun
      cases hrun
      exact hback (by simp)
    | ok replacement =>
      rw [runIn_settle_of_ok hreplace] at hrun
      cases replacement with
      | some replacement =>
        cases hrun
        exact absurd rfl (hresult replacement)
      | none =>
        have hrolled : (do return (fun _ => none) (← rollBack graph state.dependencies) :
            Access (Option Replacement)).runIn state.session = (result, after) := hrun
        rw [Access.runIn_map] at hrolled
        cases hrolled
        exact hback (by simp)

/-- A call that fails to insert or replace documents removes none that were stored before it, if no
recorded key is one of theirs. -/
theorem prefix_documents_of_fails (hbuilt : Graph.build schema = .ok graph)
    {recorded : List Dependency} (hfails : (graph.collection name).Fails session recorded after)
    (hspares : ∀ dependency ∈ recorded, dependency.Spares graph session.store) (other : String) :
    session.store.documents other <+: after.store.documents other := by
  cases hfails with
  | insert hrun =>
    exact prefix_documents_insertMany hbuilt (Access.runIn_map_eq_error hrun) hspares other
  | insertMany hrun => exact prefix_documents_insertMany hbuilt hrun hspares other
  | replace hrun hresult => exact prefix_documents_replace hbuilt hrun hresult hspares other

end

def shopSession : Session where
  store := { collections := .ofList [("products", [product "0" "o"])] }

/-- Two new products are stored and deleted again; the one that was there stays. -/
theorem prefix_documents_failingOrder : ∃ after,
    (stockSchema.graph.collection "orders").Fails shopSession
      (((stockSchema.graph.collection "orders").inserting [failingOrder]).recorded shopSession)
      after ∧
    (((stockSchema.graph.collection "orders").inserting [failingOrder]).recorded
      shopSession).length = 2 ∧
    ∀ other, shopSession.store.documents other <+: after.store.documents other := by
  have hfails : ((stockSchema.graph.collection "orders").insert failingOrder).result?
      shopSession = none := by
    decide
  have hspares : ∀ dependency ∈
      ((stockSchema.graph.collection "orders").inserting [failingOrder]).recorded shopSession,
      dependency.key.isObject = false ∧
        (stockSchema.graph.collection dependency.collection).key ≠ idField ∧
        ¬(stockSchema.graph.collection dependency.collection).Finds shopSession.store
          dependency.key := by
    decide
  cases hrun : ((stockSchema.graph.collection "orders").insert failingOrder).runIn shopSession with
  | mk result after =>
    rw [Access.result?, Access.answer, hrun] at hfails
    cases result with
    | ok stored => cases hfails
    | error error =>
      refine ⟨after, .insert hrun, by decide,
        prefix_documents_of_fails (stockSchema.build_graph rfl) (.insert hrun)
          fun dependency hdependency => ?_⟩
      obtain ⟨hobject, hkey, hnot⟩ := hspares dependency hdependency
      exact ⟨hobject, fun hid => absurd hid hkey, fun _ => hnot⟩

/-- An order of a new product, with the key of the one that is there, and two that are not there. -/
def twinOrder : Json :=
  .object [("_id", .string "o"), ("items", .array [product "1" "o", .string "r", .string "s"])]

/-- Both products with the key of the new one are deleted. -/
theorem not_prefix_documents_twinOrder :
    ((stockSchema.graph.collection "orders").insert twinOrder).result? shopSession = none ∧
    ¬shopSession.store.documents "products" <+:
      (((stockSchema.graph.collection "orders").insert twinOrder).runIn
        shopSession).2.store.documents "products" := by
  have hlengths : (shopSession.store.documents "products").length = 1 ∧
      ((((stockSchema.graph.collection "orders").insert twinOrder).runIn
        shopSession).2.store.documents "products").length = 0 := by
    decide
  refine ⟨by decide, fun hfront => ?_⟩
  have hle := hfront.length_le
  omega

end Collection

end LinkedDocs
