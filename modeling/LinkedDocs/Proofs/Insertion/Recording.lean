import LinkedDocs.Platform.Native
import LinkedDocs.Proofs.Collection.KeyChecks
import LinkedDocs.Proofs.Insertion.Nested

/-!
What an insertion records. In any graph and any store, an insertion that fails has recorded the key of
every document that it stored on the way. The one exception is a nested document which turns out to
have no key: it is stored, it is what the insertion fails of, and nothing tells where it is.
-/

namespace LinkedDocs

open Json Store

/-- A store with documents added behind those of their collections. -/
def Store.Adds (before : Store) (added : List (String × Json)) (after : Store) : Prop :=
  ∀ name, after.documents name =
    before.documents name ++ (added.filter fun entry => entry.1 = name).map Prod.snd

/-- Whether a dependency tells where a stored document is. -/
def Graph.Locates (graph : Graph) (entry : String × Json) (dependency : Dependency) : Prop :=
  dependency.collection = entry.1 ∧
    (graph.collection entry.1).keyOf? entry.2 = some dependency.key

/-- Whether an error is about a stored document that has no key. -/
def Graph.Misses (graph : Graph) (error : Error) (entry : String × Json) : Prop :=
  (graph.collection entry.1).keyOf? entry.2 = none ∧ ∃ collection place,
    error = .violation collection place
      (.nestedWithoutKey (graph.collection entry.1).key entry.1)

/-- What happens between two states of an insertion: documents with new ids are added, all of them
recorded but perhaps the last one. -/
structure Recorded (graph : Graph) (before after : InsertionState) (added : List (String × Json))
    (orphan? : Option (String × Json)) : Prop where
  adds : before.session.store.Adds (added ++ orphan?.toList) after.session.store
  differ : ∀ entry ∈ added ++ orphan?.toList, ∀ other ∈ before.session.store.documents entry.1,
    Differ (idOf other) (idOf entry.2)
  exists_recorded : ∃ recorded, after.dependencies = before.dependencies ++ recorded ∧
    List.Forall₂ graph.Locates added recorded

section Recorded

variable {graph : Graph} {before middle after : InsertionState}

theorem recorded_of_sameDocuments {state : InsertionState} {session : Session}
    (hsame : state.session.store.SameDocuments session.store) :
    Recorded graph state { state with session } [] none where
  adds := fun name => by simpa using hsame name
  differ := fun _ hentry => absurd hentry List.not_mem_nil
  exists_recorded := ⟨[], (List.append_nil _).symm, .nil⟩

theorem Recorded.trans {first second : List (String × Json)} {orphan? : Option (String × Json)}
    (h : Recorded graph before middle first none) (hnext : Recorded graph middle after second orphan?) :
    Recorded graph before after (first ++ second) orphan? where
  adds := by
    intro name
    rw [hnext.adds, h.adds, Option.toList_none, List.append_nil, List.append_assoc,
      ← List.map_append, ← List.filter_append, List.append_assoc]
  differ := by
    intro entry hentry other hother
    rw [List.append_assoc] at hentry
    rcases List.mem_append.1 hentry with hfirst | hsecond
    · exact h.differ entry (List.mem_append_left _ hfirst) other hother
    · refine hnext.differ entry hsecond other ?_
      rw [h.adds]
      exact List.mem_append_left _ hother
  exists_recorded := by
    obtain ⟨recorded, hrecorded, hfirst⟩ := h.exists_recorded
    obtain ⟨more, hmore, hsecond⟩ := hnext.exists_recorded
    refine ⟨recorded ++ more, ?_, List.rel_append hfirst hsecond⟩
    rw [hmore, hrecorded, List.append_assoc]

/-- Each of the documents is recorded. -/
theorem Recorded.mem_dependencies {added : List (String × Json)} {orphan? : Option (String × Json)}
    (h : Recorded graph before after added orphan?) :
    ∀ entry ∈ added, ∃ key, (graph.collection entry.1).keyOf? entry.2 = some key ∧
      ⟨entry.1, key⟩ ∈ after.dependencies := by
  obtain ⟨recorded, hrecorded, hlocates⟩ := h.exists_recorded
  intro entry hentry
  obtain ⟨dependency, hdependency, hcollection, hkey⟩ := exists_of_forall₂ hlocates.flip entry hentry
  refine ⟨dependency.key, hkey, ?_⟩
  rw [hrecorded, ← hcollection]
  exact List.mem_append_right _ hdependency

end Recorded

/-- Whether an insertion records what it adds, but for a document without a key of which it fails. -/
def Insertion.Records {α : Type} (graph : Graph) (insertion : Insertion α) : Prop :=
  ∀ state, ∃ added orphan?, Recorded graph state (insertion.run.run state).2 added orphan? ∧
    ∀ orphan ∈ orphan?, ∃ error,
      (insertion.run.run state).1 = .error error ∧ graph.Misses error orphan

/-- Whether a computation with a result leaves the documents as they are. -/
def Access.Leaves {α : Type} (access : Access α) (result : Except Error α) : Prop :=
  ∀ session after, access.runIn session = (result, after) →
    session.store.SameDocuments after.store

namespace Insertion

variable {α β : Type} {graph : Graph}

theorem records_of_recorded {insertion : Insertion α}
    (h : ∀ state, ∃ added, Recorded graph state (insertion.run.run state).2 added none) :
    Records graph insertion := by
  intro state
  obtain ⟨added, hadded⟩ := h state
  exact ⟨added, none, hadded, by rintro _ ⟨⟩⟩

theorem Records.exists_of_ok {insertion : Insertion α} (h : Records graph insertion)
    {state after : InsertionState} {value : α} (hrun : insertion.run.run state = (.ok value, after)) :
    ∃ added, Recorded graph state after added none := by
  obtain ⟨added, orphan?, hadded, horphan⟩ := h state
  rw [hrun] at hadded horphan
  cases orphan? with
  | none => exact ⟨added, hadded⟩
  | some orphan =>
    obtain ⟨_, hfails, -⟩ := horphan orphan rfl
    cases hfails

theorem Records.exists_of_error {insertion : Insertion α} (h : Records graph insertion)
    {state after : InsertionState} {error : Error}
    (hrun : insertion.run.run state = (.error error, after)) :
    ∃ added orphan?, Recorded graph state after added orphan? ∧
      ∀ orphan ∈ orphan?, graph.Misses error orphan := by
  obtain ⟨added, orphan?, hadded, horphan⟩ := h state
  rw [hrun] at hadded horphan
  refine ⟨added, orphan?, hadded, fun orphan hmem => ?_⟩
  obtain ⟨_, ⟨⟩, hmisses⟩ := horphan orphan hmem
  exact hmisses

theorem Records.pure (value : α) : Records graph (pure value : Insertion α) :=
  records_of_recorded fun _ => ⟨[], recorded_of_sameDocuments fun _ => rfl⟩

theorem Records.bind {first : Insertion α} {next : α → Insertion β} (hfirst : Records graph first)
    (hnext : ∀ value, Records graph (next value)) : Records graph (first >>= next) := by
  intro state
  rw [run_run_bind]
  cases hstart : first.run.run state with
  | mk result middle =>
    cases result with
    | error error =>
      obtain ⟨added, orphan?, hadded, horphan⟩ := hfirst.exists_of_error hstart
      exact ⟨added, orphan?, hadded, fun orphan hmem => ⟨error, rfl, horphan orphan hmem⟩⟩
    | ok value =>
      obtain ⟨added, hadded⟩ := hfirst.exists_of_ok hstart
      obtain ⟨more, orphan?, hmore, horphan⟩ := hnext value middle
      exact ⟨_, orphan?, hadded.trans hmore, horphan⟩

theorem Records.map {first : Insertion α} (hfirst : Records graph first) (change : α → β) :
    Records graph (do return change (← first)) :=
  hfirst.bind fun value => .pure (change value)

theorem records_ofAccess {access : Access α} (hreads : access.Reads) :
    Records graph (ofAccess access) := by
  refine records_of_recorded fun state => ⟨[], recorded_of_sameDocuments fun name => ?_⟩
  exact congrArg (Store.documents · name) (hreads.store_runIn state.session)

/-- An insertion whose last write leaves the documents as they are has recorded what was added. -/
theorem Records.exists_of_leaves {first : Insertion α} (hfirst : Records graph first)
    {access : α → Access β} {result : Except Error β} (hleaves : ∀ value, (access value).Leaves result)
    {state after : InsertionState}
    (hrun : (do ofAccess (access (← first)) : Insertion β).run.run state = (result, after)) :
    ∃ added orphan?, Recorded graph state after added orphan? ∧
      ∀ orphan ∈ orphan?, ∃ error, result = .error error ∧ graph.Misses error orphan := by
  rw [run_run_bind] at hrun
  cases hstart : first.run.run state with
  | mk outcome middle =>
    rw [hstart] at hrun
    cases outcome with
    | error error =>
      cases hrun
      obtain ⟨added, orphan?, hadded, horphan⟩ := hfirst.exists_of_error hstart
      exact ⟨added, orphan?, hadded, fun orphan hmem => ⟨error, rfl, horphan orphan hmem⟩⟩
    | ok value =>
      obtain ⟨added, hadded⟩ := hfirst.exists_of_ok hstart
      obtain ⟨hresult, rfl⟩ := Prod.mk.inj hrun
      have hsame := hleaves value middle.session _ (Prod.ext hresult rfl)
      exact ⟨_, none, hadded.trans (recorded_of_sameDocuments hsame), by rintro _ ⟨⟩⟩

end Insertion

theorem Access.leaves_call {α : Type} {collection : String} {request : StoreRequest}
    {perform : Store → Except Error α × Store} {result : Except Error α}
    (h : ∀ store after, perform store = (result, after) → store.SameDocuments after) :
    (Access.call collection request perform).Leaves result := by
  intro session after hrun
  rw [runIn_call] at hrun
  split at hrun
  case isTrue =>
    cases hrun
    exact fun _ => rfl
  case isFalse =>
    obtain ⟨hresult, rfl⟩ := Prod.mk.inj hrun
    exact h session.store _ (Prod.ext hresult rfl)

section

theorem Store.Appends.adds {before after : Store} {name : String} {document : Json}
    (h : before.Appends name [document] after) : before.Adds [(name, document)] after := by
  intro other
  rw [h]
  by_cases hname : other = name
  · simp [hname]
  · simp [hname, Ne.symm hname]

variable [Platform]

theorem leaves_insertOne (name : String) (document : Json) (error : Error) :
    (Access.insertOne name document).Leaves (.error error) := by
  refine Access.leaves_call fun store after hinsert => ?_
  rcases insertOne_cases store name document with
    ⟨_, _, hfailed, hsame⟩ | ⟨_, _, hstored, -⟩
  · cases hfailed.symm.trans hinsert
    exact hsame
  · cases hstored.symm.trans hinsert

theorem leaves_insertMany (name : String) (documents : List Json) (error : Error) :
    (Access.insertMany name documents).Leaves (.error error) := by
  refine Access.leaves_call fun store after hinsert => ?_
  rcases insertMany_cases store name documents with
    ⟨_, _, hfailed, hsame⟩ | ⟨_, _, hstored, -⟩
  · cases hfailed.symm.trans hinsert
    exact hsame
  · cases hstored.symm.trans hinsert

theorem leaves_replaceOne (name : String) (filter document : Json)
    {result : Except Error (Option Replacement)}
    (hresult : ∀ replacement, result ≠ .ok (some replacement)) :
    (Access.replaceOne name filter document).Leaves result := by
  refine Access.leaves_call fun store after hreplace => ?_
  rcases replaceOne_cases store name filter document with
    ⟨_, _, hkept, hsame, -⟩ | ⟨_, _, _, _, _, hreplaced, -⟩
  · cases hkept.symm.trans hreplace
    exact hsame
  · cases hreplaced.symm.trans hreplace
    exact absurd rfl (hresult _)

/-- A document that is inserted has a new id. -/
theorem runIn_insertOne_eq_ok {name : String} {document stored : Json} {session after : Session}
    (h : (Access.insertOne name document).runIn session = (.ok stored, after)) :
    session.store.Adds [(name, stored)] after.store ∧
      ∀ other ∈ session.store.documents name, Differ (idOf other) (idOf stored) := by
  obtain ⟨hinsert, -⟩ := Access.runIn_call_eq_ok h
  rcases insertOne_cases session.store name document with
    ⟨_, _, hfailed, -⟩ | ⟨_, _, hstored, happends, -, -, hdiffer⟩
  · cases hfailed.symm.trans hinsert
  · cases hstored.symm.trans hinsert
    exact ⟨happends.adds, hdiffer⟩

end

namespace Collection

section

variable [Platform]

/-- A nested document is stored and recorded, unless it has no key. -/
theorem records_insertVerified (target : Collection) (document : Json) (collection : String)
    (place : String) :
    Insertion.Records target.graph (do
      Insertion.ofAccess (target.verify document)
      let stored ← Insertion.ofAccess (Access.insertOne target.name document)
      match target.keyOf? stored with
      | none => throw (.violation collection place (.nestedWithoutKey target.key target.name))
      | some key => do
        Insertion.record ⟨target.name, key⟩
        return key : Insertion Json) := by
  refine (Insertion.records_ofAccess (reads_verify target document)).bind fun _ state => ?_
  rw [run_run_bind, Insertion.run_ofAccess]
  cases hinsert : (Access.insertOne target.name document).runIn state.session with
  | mk result session =>
    cases result with
    | error error =>
      have hsame := leaves_insertOne _ _ _ _ _ hinsert
      exact ⟨[], none, recorded_of_sameDocuments hsame, by rintro _ ⟨⟩⟩
    | ok stored =>
      obtain ⟨hadds, hdiffer⟩ := runIn_insertOne_eq_ok hinsert
      dsimp only
      cases hkey : target.keyOf? stored with
      | none =>
        refine ⟨[], some (target.name, stored), ⟨hadds, ?_, [], ?_, .nil⟩, ?_⟩
        · simpa using hdiffer
        · exact (List.append_nil _).symm
        · rintro _ ⟨⟩
          exact ⟨_, rfl, hkey, collection, place, rfl⟩
      | some key =>
        refine ⟨[(target.name, stored)], none, ⟨hadds, ?_, [⟨target.name, key⟩], rfl, ?_⟩, ?_⟩
        · simpa using hdiffer
        · exact .cons ⟨rfl, hkey⟩ .nil
        · rintro _ ⟨⟩

mutual

theorem records_insertNested (collection : Collection) (stack : Stack) (value : Json) :
    Insertion.Records collection.graph (insertNested collection stack value) := by
  cases value with
  | object fields =>
    unfold insertNested
    split
    case h_1 => exact (records_insertNestedFields collection stack fields).map Json.object
    case h_2 foreignKey _ =>
      exact (records_insertNestedFields (collection.target foreignKey) [] fields).bind fun prepared =>
        records_insertVerified (collection.target foreignKey) (.object prepared) _ _
  | array items =>
    unfold insertNested
    exact (records_insertNestedItems collection stack 0 items).map Json.array
  | null => exact .pure _
  | bool _ => exact .pure _
  | number _ => exact .pure _
  | string _ => exact .pure _
termination_by structural value

theorem records_insertNestedItems (collection : Collection) (stack : Stack) (position : Nat)
    (items : List Json) :
    Insertion.Records collection.graph (insertNestedItems collection stack position items) := by
  cases items with
  | nil => exact .pure _
  | cons item rest =>
    unfold insertNestedItems
    exact (records_insertNested collection _ item).bind fun replaced =>
      (records_insertNestedItems collection stack (position + 1) rest).map (replaced :: ·)
termination_by structural items

theorem records_insertNestedFields (collection : Collection) (stack : Stack)
    (fields : List (String × Json)) :
    Insertion.Records collection.graph (insertNestedFields collection stack fields) := by
  cases fields with
  | nil => exact .pure _
  | cons field rest =>
    obtain ⟨name, value⟩ := field
    unfold insertNestedFields
    exact (records_insertNested collection _ value).bind fun replaced =>
      (records_insertNestedFields collection stack rest).map ((name, replaced) :: ·)
termination_by structural fields

end

theorem records_prepare (collection : Collection) (document : Json) :
    Insertion.Records collection.graph (collection.prepare document) := by
  rw [prepare_eq]
  refine Insertion.Records.bind ?_ fun prepared =>
    (Insertion.records_ofAccess (reads_verify collection prepared)).bind fun _ => .pure prepared
  unfold insertBelow
  split
  case h_1 fields => exact (records_insertNestedFields collection [] fields).map Json.object
  case h_2 => exact records_insertNested collection [] document

theorem records_prepareAll (collection : Collection) (documents : List Json) :
    Insertion.Records collection.graph (collection.prepareAll documents) := by
  induction documents with
  | nil => exact .pure _
  | cons document rest ih =>
    unfold prepareAll
    exact (records_prepare collection document).bind fun prepared => ih.map (prepared :: ·)

/-- What is settled when documents are inserted. -/
def inserting (collection : Collection) (documents : List Json) : Insertion (List Json) := do
  Insertion.ofAccess (Access.insertMany collection.name (← collection.prepareAll documents))

/-- What is settled when a document is replaced. -/
def replacing (collection : Collection) (filter document : Json) :
    Insertion (Option Replacement) := do
  Insertion.ofAccess (Access.replaceOne collection.name filter (← collection.prepare document))

theorem insertMany_eq (collection : Collection) (documents : List Json) :
    collection.insertMany documents = (do
      return (← settle collection.graph (collection.inserting documents)).1) := rfl

theorem replace_eq (collection : Collection) (filter document : Json) :
    collection.replace filter document = (do
      let (replacement, dependencies) ← settle collection.graph (collection.replacing filter document)
      if replacement.isNone then rollBack collection.graph dependencies
      return replacement) := rfl

theorem exists_recorded_inserting {collection : Collection} {documents : List Json}
    {session : Session} {error : Error} {state : InsertionState}
    (hrun : (collection.inserting documents).run.run { session } = (.error error, state)) :
    ∃ added orphan?, Recorded collection.graph { session } state added orphan? ∧
      ∀ orphan ∈ orphan?, collection.graph.Misses error orphan := by
  obtain ⟨added, orphan?, hadded, horphan⟩ := (records_prepareAll collection documents).exists_of_leaves
    (fun prepared => leaves_insertMany collection.name prepared error) hrun
  exact ⟨added, orphan?, hadded, fun orphan hmem => by simpa using horphan orphan hmem⟩

theorem exists_recorded_replacing {collection : Collection} {filter document : Json}
    {session : Session} {result : Except Error (Option Replacement)} {state : InsertionState}
    (hrun : (collection.replacing filter document).run.run { session } = (result, state))
    (hresult : ∀ replacement, result ≠ .ok (some replacement)) :
    ∃ added orphan?, Recorded collection.graph { session } state added orphan? ∧
      ∀ orphan ∈ orphan?, ∃ error, result = .error error ∧ collection.graph.Misses error orphan :=
  (records_prepare collection document).exists_of_leaves
    (fun prepared => leaves_replaceOne collection.name filter prepared hresult) hrun

/-- When an insertion or a replacement fails, the nested documents that it has stored so far are
recorded with their keys, at whatever depth and in whatever collection they are. There is one more
document at most, and only if what the insertion fails of is that it has no key. -/
theorem exists_adds_of_error (graph : Graph) (name : String) {session : Session} {error : Error}
    {state : InsertionState}
    (hfails : (∃ documents, ((graph.collection name).inserting documents).run.run { session } =
        (.error error, state)) ∨
      ∃ filter document, ((graph.collection name).replacing filter document).run.run { session } =
        (.error error, state)) :
    ∃ (added : List (String × Json)) (orphan? : Option (String × Json)),
      session.store.Adds (added ++ orphan?.toList) state.session.store ∧
      (∀ entry ∈ added, ∃ key, (graph.collection entry.1).keyOf? entry.2 = some key ∧
        ⟨entry.1, key⟩ ∈ state.dependencies) ∧
      ∀ orphan ∈ orphan?, graph.Misses error orphan := by
  have hrecorded : ∃ added orphan?, Recorded graph { session } state added orphan? ∧
      ∀ orphan ∈ orphan?, graph.Misses error orphan := by
    rcases hfails with ⟨documents, hrun⟩ | ⟨filter, document, hrun⟩
    · exact exists_recorded_inserting hrun
    · obtain ⟨added, orphan?, hadded, horphan⟩ := exists_recorded_replacing hrun (by simp)
      refine ⟨added, orphan?, hadded, fun orphan hmem => ?_⟩
      obtain ⟨_, ⟨⟩, hmisses⟩ := horphan orphan hmem
      exact hmisses
  obtain ⟨added, orphan?, hadded, hmisses⟩ := hrecorded
  exact ⟨added, orphan?, hadded.adds, hadded.mem_dependencies, hmisses⟩

end

/-- An order of two new products and one that is not there. -/
def failingOrder : Json :=
  .object [("_id", .string "o"), ("items", .array [product "1" "p", product "2" "q", .string "r"])]

theorem exists_adds_failingOrder : ∃ error state,
    ((stockSchema.graph.collection "orders").inserting [failingOrder]).run.run { session := {} } =
      (.error error, state) ∧
    sameItems (state.session.store.documents "products") [product "1" "p", product "2" "q"] ∧
    ∃ (added : List (String × Json)) (orphan? : Option (String × Json)),
      Store.Adds {} (added ++ orphan?.toList) state.session.store ∧
      (∀ entry ∈ added, ∃ key, (stockSchema.graph.collection entry.1).keyOf? entry.2 = some key ∧
        ⟨entry.1, key⟩ ∈ state.dependencies) ∧
      ∀ orphan ∈ orphan?, stockSchema.graph.Misses error orphan := by
  have hfails : (((stockSchema.graph.collection "orders").inserting [failingOrder]).run.run
      { session := {} }).1.toOption = none ∧
    sameItems ((((stockSchema.graph.collection "orders").inserting [failingOrder]).run.run
      { session := {} }).2.session.store.documents "products")
        [product "1" "p", product "2" "q"] := by
    decide
  cases hrun : ((stockSchema.graph.collection "orders").inserting [failingOrder]).run.run
      { session := {} } with
  | mk result state =>
    rw [hrun] at hfails
    cases result with
    | ok value => cases hfails.1
    | error error =>
      exact ⟨error, state, rfl, hfails.2,
        exists_adds_of_error stockSchema.graph "orders" (.inl ⟨_, hrun⟩)⟩

/-- An order of a new product without a key. -/
def keylessOrder : Json :=
  .object [("_id", .string "o"), ("items", .array [.object [("_id", .string "1")]])]

/-- The product is stored when the order fails, but it is not recorded; so it stays there when the
order is rolled back. -/
theorem not_recorded_keylessOrder :
    (((stockSchema.graph.collection "orders").inserting [keylessOrder]).run.run
      { session := {} }).1.toOption = none ∧
    sameItems ((((stockSchema.graph.collection "orders").inserting [keylessOrder]).run.run
      { session := {} }).2.session.store.documents "products") [.object [("_id", .string "1")]] ∧
    (((stockSchema.graph.collection "orders").inserting [keylessOrder]).run.run
      { session := {} }).2.dependencies.length = 0 ∧
    ((stockSchema.graph.collection "orders").insert keylessOrder).result? {} = none ∧
    sameItems ((((stockSchema.graph.collection "orders").insert keylessOrder).runIn
      {}).2.store.documents "products") [.object [("_id", .string "1")]] := by
  decide

end Collection

end LinkedDocs
