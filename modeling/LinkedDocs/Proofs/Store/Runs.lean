import LinkedDocs.Platform.Native
import LinkedDocs.Proofs.Store.Identity
import LinkedDocs.Proofs.Update.Steps
import LinkedDocs.Store.Session

namespace LinkedDocs

open Json

section

variable [Platform]

/-- The store after a call to it, whether the call succeeds or fails. -/
def StoreCall.after (call : StoreCall) (store : Store) : Store :=
  match call.request with
  | .find _ _ => store
  | .count _ _ => store
  | .insertOne document => (store.insertOne call.collection document).2
  | .insertMany documents => (store.insertMany call.collection documents).2
  | .update filter update options => (store.update call.collection filter update options).2
  | .replaceOne filter document => (store.replaceOne call.collection filter document).2
  | .deleteMany filter => (store.deleteMany call.collection filter).2
  | .dropCollection => (store.dropCollection call.collection).2
  | .collectionNames => store

/-- The store after some calls, made one after the other. -/
def Store.afterCalls (store : Store) (calls : List StoreCall) : Store :=
  calls.foldl (fun store call => call.after store) store

namespace Update

variable {arrayFilters : List Json}

omit [Platform] in
theorem isObject_putChange (name : String) (fields : List (String × Json)) (change : Change) :
    (putChange name fields change).1.isObject := by
  cases change <;> rfl

theorem isObject_updateAt {operator : UpdateOperator} {argument document updated : Json}
    {path : List String} {changed : Bool} (hobject : document.isObject)
    (h : updateAt arrayFilters operator argument path document = .ok (updated, changed)) :
    updated.isObject := by
  cases path with
  | nil =>
    cases h
    exact hobject
  | cons segment rest =>
    cases document with
    | object fields =>
      generalize hresult : (updated, changed) = result at h
      cases step_of_updateAt h with
      | @last _ change =>
        have hupdated := isObject_putChange segment fields change
        rwa [← hresult] at hupdated
      | child | created | missing =>
        cases hresult
        rfl
      | other hno => cases hno
    | _ => cases hobject

/-- An update of an object is an object. -/
theorem isObject_apply {update document updated : Json} {changed : Bool}
    (hobject : document.isObject) (h : apply update arrayFilters document = .ok (updated, changed)) :
    updated.isObject := by
  have hkept : KeptAtTargets arrayFilters fun current _ => current.isObject :=
    fun _ _ _ _ _ _ _ hbefore hupdate => isObject_updateAt hbefore hupdate
  exact hkept.apply hobject h

end Update

end

namespace Store

/-- Objects, no two of which have ids with the same value. -/
structure KeptApart (documents : List Json) : Prop where
  isObject : ∀ document ∈ documents, document.isObject
  differ : (documents.map idOf).Pairwise Differ

/-- A store whose collections hold objects with ids that differ. -/
def KeepsApart (store : Store) : Prop :=
  ∀ name, KeptApart (store.documents name)

/-- How a document may change in its place: it stays an object, with an id of the same value. -/
def Replaces (old new : Json) : Prop :=
  (old.isObject → new.isObject) ∧ (idOf new).sameValue (idOf old)

section KeptApart

variable {documents others : List Json}

theorem keptApart_nil : KeptApart [] :=
  ⟨fun _ hdocument => absurd hdocument List.not_mem_nil, .nil⟩

theorem KeptApart.concat (h : KeptApart documents) {document : Json} (hobject : document.isObject)
    (hdiffer : ∀ other ∈ documents, Differ (idOf other) (idOf document)) :
    KeptApart (documents ++ [document]) where
  isObject := List.forall_mem_append.2 ⟨h.isObject, List.forall_mem_singleton.2 hobject⟩
  differ := pairwise_differ_concat h.differ hdiffer

theorem KeptApart.sublist (h : KeptApart documents) (hsub : others.Sublist documents) :
    KeptApart others where
  isObject other hother := h.isObject other (hsub.subset hother)
  differ := h.differ.sublist (hsub.map idOf)

theorem KeptApart.replaced (h : KeptApart documents)
    (hreplaced : List.Forall₂ Replaces documents others) : KeptApart others where
  isObject other hother := by
    obtain ⟨hobjects, -⟩ := h
    induction hreplaced with
    | nil => cases hother
    | cons hfirst _ ih =>
      obtain ⟨hobject, hobjects⟩ := List.forall_mem_cons.1 hobjects
      rcases List.mem_cons.1 hother with rfl | hrest
      · exact hfirst.1 hobject
      · exact ih hrest hobjects
  differ := pairwise_differ_of_forall₂ (hreplaced.imp fun _ _ hboth => hboth.2) h.differ

theorem Replaces.refl (document : Json) : Replaces document document :=
  ⟨id, sameValue_refl _⟩

theorem KeepsApart.withDocuments {store : Store} (h : store.KeepsApart) (collection : String)
    (hdocuments : KeptApart documents) : (store.withDocuments collection documents).KeepsApart := by
  intro name
  rw [documents_withDocuments]
  split
  · exact hdocuments
  · exact h name

end KeptApart

theorem StoredAs.isObject {document stored : Json} (h : StoredAs document stored) :
    stored.isObject := by
  cases h <;> rfl

section

theorem forall₂_replaces_refl (documents : List Json) : List.Forall₂ Replaces documents documents :=
  List.forall₂_same.2 fun document _ => .refl document

theorem KeepsApart.of_sameDocuments {store after : Store} (h : store.KeepsApart)
    (hsame : store.SameDocuments after) : after.KeepsApart := by
  intro name
  rw [hsame name]
  exact h name

theorem KeepsApart.dropCollection {store : Store} (h : store.KeepsApart) (collection : String) :
    (store.dropCollection collection).2.KeepsApart := by
  intro name
  change KeptApart ((store.collections.erase collection).getD name [])
  rw [NameMap.getD, NameMap.get?_erase]
  split
  · exact keptApart_nil
  · exact h name

variable [Platform]

theorem keptApart_of_prepareAll {name : String} {issued next : Nat}
    {existing documents stored : List Json} (h : KeptApart existing)
    (hprepared : prepareAll name issued existing documents = .ok (stored, next)) :
    KeptApart (existing ++ stored) := by
  induction documents generalizing issued existing stored with
  | nil =>
    cases hprepared
    rwa [List.append_nil]
  | cons document rest ih =>
    rw [prepareAll] at hprepared
    obtain ⟨⟨first, middle⟩, hfirst, hprepared⟩ := bind_eq_ok_iff.1 hprepared
    obtain ⟨⟨others, last⟩, hothers, hprepared⟩ := bind_eq_ok_iff.1 hprepared
    cases hprepared
    obtain ⟨hstored, -, hdiffer⟩ := storedAs_of_prepare hfirst
    have hrest := ih (h.concat hstored.isObject hdiffer) hothers
    rwa [List.append_assoc] at hrest

theorem KeepsApart.insertOne {store : Store} (h : store.KeepsApart) (collection : String)
    (document : Json) : (store.insertOne collection document).2.KeepsApart := by
  unfold Store.insertOne
  dsimp only
  split
  case h_1 stored issued hprepare =>
    obtain ⟨hstored, -, hdiffer⟩ := storedAs_of_prepare hprepare
    exact h.withDocuments collection ((h collection).concat hstored.isObject hdiffer)
  case h_2 => exact h.withDocuments collection (h collection)

theorem KeepsApart.insertMany {store : Store} (h : store.KeepsApart) (collection : String)
    (documents : List Json) : (store.insertMany collection documents).2.KeepsApart := by
  unfold Store.insertMany
  dsimp only
  split
  case h_1 stored issued hprepare =>
    exact h.withDocuments collection (keptApart_of_prepareAll (h collection) hprepare)
  case h_2 => exact h.withDocuments collection (h collection)

theorem keepsApart_of_load {store loaded : Store} (h : store.KeepsApart)
    {collections : List (String × Json)} (hload : ofFixture.load store collections = .ok loaded) :
    loaded.KeepsApart := by
  induction collections generalizing store with
  | nil =>
    cases hload
    exact h
  | cons collection rest ih =>
    obtain ⟨name, documents⟩ := collection
    cases documents with
    | array documents =>
      rw [ofFixture.load] at hload
      obtain ⟨⟨prepared, issued⟩, hprepared, hload⟩ := bind_eq_ok_iff.1 hload
      have hkept : KeptApart prepared := keptApart_of_prepareAll keptApart_nil hprepared
      have hnext : KeepsApart { store.withDocuments name prepared with issued } :=
        h.withDocuments name hkept
      exact ih hnext hload
    | _ => cases hload

/-- An update that changes a document keeps the value of its id, or it fails. -/
theorem replaces_of_updateDocument? {filter update document updated : Json}
    {arrayFilters : List Json} {modified : Bool}
    (h : updateDocument? filter update arrayFilters document = .ok (some (updated, modified))) :
    Replaces document updated := by
  unfold updateDocument? at h
  obtain ⟨matched, -, h⟩ := bind_eq_ok_iff.1 h
  cases matched with
  | false => cases h
  | true =>
    obtain ⟨⟨result, changed⟩, hresult, h⟩ := bind_eq_ok_iff.1 h
    cases changed with
    | false =>
      cases h
      exact .refl document
    | true =>
      simp only [Bool.not_true, Bool.false_eq_true, if_false] at h
      split at h
      case isTrue hsame =>
        cases h
        exact ⟨fun hobject => Update.isObject_apply hobject (mapError_eq_ok_iff.1 hresult), hsame⟩
      case isFalse => cases h

/-- An update of one document or several, up to where it fails, changes documents in their
places. -/
theorem forall₂_replaces_updateIn (filter update : Json) (options : UpdateOptions)
    (documents : List Json) :
    List.Forall₂ Replaces documents (updateIn filter update options documents).2 := by
  induction documents with
  | nil => exact .nil
  | cons document rest ih =>
    rw [updateIn]
    split
    case h_1 => exact forall₂_replaces_refl _
    case h_2 => exact .cons (.refl document) ih
    case h_3 updated modified hupdated =>
      have hreplaces := replaces_of_updateDocument? hupdated
      dsimp only
      split
      · exact .cons hreplaces ih
      · exact .cons hreplaces (forall₂_replaces_refl rest)

/-- An update leaves documents with ids of the same values, in all collections. -/
theorem forall₂_replaces_update (store : Store) (collection : String) (filter changes : Json)
    (options : UpdateOptions) (name : String) :
    List.Forall₂ Replaces (store.documents name)
      ((store.update collection filter changes options).2.documents name) := by
  unfold Store.update
  split
  case h_1 => exact forall₂_replaces_refl _
  case h_2 documents hdocuments =>
    rw [documents_withDocuments]
    split
    case isTrue hname =>
      rw [hname, documents_of_get? hdocuments]
      exact forall₂_replaces_updateIn filter changes options documents
    case isFalse => exact forall₂_replaces_refl _

theorem KeepsApart.update {store : Store} (h : store.KeepsApart) (collection : String)
    (filter changes : Json) (options : UpdateOptions) :
    (store.update collection filter changes options).2.KeepsApart := by
  intro name
  exact (h name).replaced (forall₂_replaces_update store collection filter changes options name)

theorem KeepsApart.replaceOne {store : Store} (h : store.KeepsApart) (collection : String)
    (filter document : Json) : (store.replaceOne collection filter document).2.KeepsApart := by
  rcases replaceOne_cases store collection filter document with
    ⟨result, after, hreplace, hsame, -⟩ |
    ⟨front, old, back, current, after, hreplace, hdocuments, hstored, hid, hafter⟩
  · rw [hreplace]
    exact h.of_sameDocuments hsame
  · rw [hreplace]
    intro name
    rw [hafter]
    split
    case isTrue =>
      have hkept := h collection
      rw [hdocuments] at hkept
      refine hkept.replaced (List.rel_append (forall₂_replaces_refl front) ?_)
      exact .cons ⟨fun _ => hstored.isObject, hid⟩ (forall₂_replaces_refl back)
    case isFalse => exact h name

theorem unmatched_sublist {filter : Json} {documents kept : List Json}
    (h : unmatched filter documents = .ok kept) : kept.Sublist documents := by
  rw [unmatched_of_evaluates (evaluates_of_unmatched h)] at h
  cases h
  exact List.filter_sublist

theorem KeepsApart.deleteMany {store : Store} (h : store.KeepsApart) (collection : String)
    (filter : Json) : (store.deleteMany collection filter).2.KeepsApart := by
  unfold Store.deleteMany
  split
  case h_1 => exact h
  case h_2 documents hdocuments =>
    split
    case h_1 kept hkept =>
      have hbefore := h collection
      rw [documents_of_get? hdocuments] at hbefore
      exact h.withDocuments collection (hbefore.sublist (unmatched_sublist hkept))
    case h_2 => exact h

theorem KeepsApart.after {store : Store} (h : store.KeepsApart) (call : StoreCall) :
    (call.after store).KeepsApart := by
  obtain ⟨collection, request⟩ := call
  cases request with
  | find | count | collectionNames => exact h
  | insertOne document => exact h.insertOne collection document
  | insertMany documents => exact h.insertMany collection documents
  | update filter update options => exact h.update collection filter update options
  | replaceOne filter document => exact h.replaceOne collection filter document
  | deleteMany filter => exact h.deleteMany collection filter
  | dropCollection => exact h.dropCollection collection

theorem KeepsApart.afterCalls {store : Store} (h : store.KeepsApart) (calls : List StoreCall) :
    (store.afterCalls calls).KeepsApart := by
  induction calls generalizing store with
  | nil => exact h
  | cons call rest ih => exact ih (h.after call)

theorem keepsApart_ofFixture {fixture : Json} {store : Store}
    (hload : ofFixture fixture = .ok store) : store.KeepsApart := by
  have hempty : KeepsApart {} := fun _ => keptApart_nil
  cases fixture with
  | object collections => exact keepsApart_of_load hempty hload
  | _ => cases hload

/-- After any calls to a store that was loaded, all its documents are objects, and no two documents
of a collection have ids with the same value. -/
theorem keepsApart_of_ofFixture {fixture : Json} {store : Store}
    (hload : ofFixture fixture = .ok store) (calls : List StoreCall) :
    (store.afterCalls calls).KeepsApart :=
  (keepsApart_ofFixture hload).afterCalls calls

end

/-- A book with the id 1. -/
def oneFixture : Json :=
  .object [("books", .array [.object [("_id", .nat 1)], .object [("_id", .string "b")]])]

/-- The double that has the value of the integer `1`. -/
def oneDouble : Json :=
  .number (.double (.ofInt 1))

/-- An insert that is refused because of the other spelling of its id, an update that spells the id of
the first book so and fails at the second one, and a replacement that keeps the id it finds. -/
def oneCalls : List StoreCall :=
  [⟨"books", .insertOne (.object [("_id", oneDouble)])⟩,
    ⟨"books", .update (.object []) (.single "$set" (.single "_id" oneDouble)) { multi := true }⟩,
    ⟨"books", .replaceOne (.single "_id" (.nat 1)) (.object [("title", .string "t")])⟩]

theorem keepsApart_oneFixture : ∃ store, ofFixture oneFixture = .ok store ∧
    (store.afterCalls oneCalls).dump.identical (.object [("books", .array [
      .object [("_id", oneDouble), ("title", .string "t")], .object [("_id", .string "b")]])]) ∧
    (store.afterCalls oneCalls).KeepsApart := by
  have hload : ofFixture oneFixture = .ok { collections := .ofList [("books",
      [.object [("_id", .nat 1)], .object [("_id", .string "b")]])] } := by rfl
  exact ⟨_, hload, by decide +kernel, keepsApart_of_ofFixture hload oneCalls⟩

end Store

end LinkedDocs
