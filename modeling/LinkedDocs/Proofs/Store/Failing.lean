import LinkedDocs.Platform.Native
import LinkedDocs.Proofs.Store.Runs

namespace LinkedDocs

section

variable [Platform]

/-- Whether a call to a store succeeds, or the error with which it fails. -/
def StoreCall.outcome (call : StoreCall) (store : Store) : Except Error Unit :=
  match call.request with
  | .find filter options => (store.find call.collection filter options).map fun _ => ()
  | .count filter limit => (store.count call.collection filter limit).map fun _ => ()
  | .insertOne document => (store.insertOne call.collection document).1.map fun _ => ()
  | .insertMany documents => (store.insertMany call.collection documents).1.map fun _ => ()
  | .update filter update options =>
    (store.update call.collection filter update options).1.map fun _ => ()
  | .replaceOne filter document =>
    (store.replaceOne call.collection filter document).1.map fun _ => ()
  | .deleteMany filter => (store.deleteMany call.collection filter).1.map fun _ => ()
  | .dropCollection => .ok ()
  | .collectionNames => .ok ()

/-- Whether a request is an update of all matching documents. -/
def StoreRequest.updatesMany : StoreRequest → Bool
  | .update _ _ options => options.multi
  | _ => false

namespace Store

section

variable {store : Store} {collection : String} {error : Error}

omit [Platform] in
/-- An operation that keeps the documents when it fails has kept them if it failed. -/
theorem sameDocuments_of_cases {α : Type} {outcome : Except Error α × Store}
    {succeeds : α → Store → Prop} (h : outcome.1 = .error error)
    (hcases : (∃ error after, outcome = (.error error, after) ∧ store.SameDocuments after) ∨
      ∃ value after, outcome = (.ok value, after) ∧ succeeds value after) :
    store.SameDocuments outcome.2 := by
  rcases hcases with ⟨_, _, rfl, hsame⟩ | ⟨_, _, rfl, -⟩
  · exact hsame
  · cases h

theorem sameDocuments_of_replaceOne {filter document : Json}
    (h : (store.replaceOne collection filter document).1 = .error error) :
    store.SameDocuments (store.replaceOne collection filter document).2 := by
  rcases replaceOne_cases store collection filter document with
    ⟨_, _, hreplace, hsame, -⟩ | ⟨_, _, _, _, _, hreplace, -⟩
  · rw [hreplace]
    exact hsame
  · rw [hreplace] at h
    cases h

theorem sameDocuments_of_deleteMany {filter : Json}
    (h : (store.deleteMany collection filter).1 = .error error) :
    store.SameDocuments (store.deleteMany collection filter).2 := by
  unfold deleteMany at h ⊢
  split at h
  case h_1 => cases h
  case h_2 =>
    split at h
    case h_1 => cases h
    case h_2 => exact fun _ => rfl

end

section

variable {filter update : Json} {options : UpdateOptions} {documents others : List Json}
  {fault : InvalidQueryFault}

/-- An update that fails has gone through the documents up to the one that it fails at. An update of
one document has found none by then. -/
theorem updateIn_eq_error
    (h : updateIn filter update options documents = (.error fault, others)) :
    ∃ front document back updated, documents = front ++ document :: back ∧
      others = updated ++ document :: back ∧
      updateDocument? filter update options.arrayFilters document = .error fault ∧
      List.Forall₂ (fun old new => ∃ result,
        updateDocument? filter update options.arrayFilters old = .ok result ∧
          new = afterUpdate old result ∧ (options.multi = false → result = none))
        front updated := by
  induction documents generalizing others with
  | nil => cases h
  | cons document rest ih =>
    rw [updateIn] at h
    cases hresult : updateDocument? filter update options.arrayFilters document with
    | error =>
      rw [hresult] at h
      cases h
      exact ⟨[], document, rest, [], rfl, rfl, hresult, .nil⟩
    | ok result =>
      rw [hresult] at h
      cases hrest : updateIn filter update options rest with
      | mk outcome updatedRest =>
        cases result with
        | none =>
          rw [hrest] at h
          cases h
          obtain ⟨front, failing, back, updated, rfl, rfl, hfails, hfront⟩ := ih hrest
          exact ⟨document :: front, failing, back, document :: updated, rfl, rfl, hfails,
            .cons ⟨none, hresult, rfl, fun _ => rfl⟩ hfront⟩
        | some pair =>
          dsimp only at h
          split at h
          case isFalse => cases h
          case isTrue hmulti =>
            rw [hrest] at h
            obtain ⟨houtcome, rfl⟩ := Prod.mk.inj h
            obtain rfl := map_eq_error_iff.1 houtcome
            obtain ⟨front, failing, back, updated, rfl, rfl, hfails, hfront⟩ := ih hrest
            refine ⟨document :: front, failing, back, pair.1 :: updated, rfl, rfl, hfails,
              .cons ⟨some pair, hresult, rfl, fun hsingle => ?_⟩ hfront⟩
            rw [hmulti] at hsingle
            cases hsingle

theorem eq_of_updateIn_eq_error (hsingle : options.multi = false)
    (h : updateIn filter update options documents = (.error fault, others)) :
    others = documents := by
  obtain ⟨front, document, back, updated, rfl, rfl, -, hfront⟩ := updateIn_eq_error h
  have hsame : List.Forall₂ (fun old new => old = new) front updated := by
    refine hfront.imp fun old new ⟨result, _, hnew, hnone⟩ => ?_
    rw [hnew, hnone hsingle]
    rfl
  rw [List.forall₂_eq_eq_eq] at hsame
  rw [hsame]

/-- How an update of many documents stops at a position: the documents before it are updated, the one
there cannot be updated, and it stays with all those after it. -/
structure StopsAt (filter update : Json) (arrayFilters : List Json) (fault : InvalidQueryFault)
    (before after : List Json) (position : Nat) : Prop where
  updated : List.Forall₂ (Updated filter update arrayFilters) (before.take position)
    (after.take position)
  untouched : after.drop position = before.drop position
  fails : ∃ document, before[position]? = some document ∧
    updateDocument? filter update arrayFilters document = .error fault

theorem exists_stopsAt_of_updateIn
    (h : updateIn filter update options documents = (.error fault, others)) :
    ∃ position, StopsAt filter update options.arrayFilters fault documents others position := by
  obtain ⟨front, document, back, updated, rfl, rfl, hfails, hfront⟩ := updateIn_eq_error h
  have hlength : updated.length = front.length := hfront.length_eq.symm
  refine ⟨front.length, ?_, ?_, document, by simp, hfails⟩
  · rw [List.take_left, List.take_left' hlength]
    refine hfront.imp fun old new ⟨result, hresult, hnew, _⟩ => ?_
    rw [hnew]
    exact updated_afterUpdate hresult
  · rw [List.drop_left, List.drop_left' hlength]

end

end Store

/-- A call that fails leaves the documents of every collection as they are. Only an update of many
documents may have changed the documents of its collection, up to the position of the document that
it failed at: each of those that match is all that the update makes of it. -/
theorem StoreCall.intact_of_outcome_eq_error {call : StoreCall} {store : Store} {error : Error}
    (h : call.outcome store = .error error) :
    (call.request.updatesMany = false → store.SameDocuments (call.after store)) ∧
      ∀ filter update options, call.request = .update filter update options → options.multi →
        (∀ name, name ≠ call.collection →
          (call.after store).documents name = store.documents name) ∧
        ∃ fault position, error = .invalidQuery call.collection fault ∧
          Store.StopsAt filter update options.arrayFilters fault
            (store.documents call.collection) ((call.after store).documents call.collection)
            position := by
  obtain ⟨collection, request⟩ := call
  cases request with
  | find | count => exact ⟨fun _ _ => rfl, nofun⟩
  | dropCollection | collectionNames => cases h
  | insertOne document =>
    have hcases := Store.insertOne_cases store collection document
    exact ⟨fun _ => Store.sameDocuments_of_cases (map_eq_error_iff.1 h) hcases, nofun⟩
  | insertMany documents =>
    have hcases := Store.insertMany_cases store collection documents
    exact ⟨fun _ => Store.sameDocuments_of_cases (map_eq_error_iff.1 h) hcases, nofun⟩
  | replaceOne => exact ⟨fun _ => Store.sameDocuments_of_replaceOne (map_eq_error_iff.1 h), nofun⟩
  | deleteMany => exact ⟨fun _ => Store.sameDocuments_of_deleteMany (map_eq_error_iff.1 h), nofun⟩
  | update filter update options =>
    obtain ⟨fault, others, herror, hfails, hdocuments⟩ :=
      Store.update_eq_error (map_eq_error_iff.1 h)
    constructor
    · intro hsingle name
      refine (hdocuments name).trans ?_
      rw [Store.eq_of_updateIn_eq_error hsingle hfails]
      split
      case isTrue hname => rw [hname]
      case isFalse => rfl
    · rintro _ _ _ ⟨⟩ -
      refine ⟨fun name hname => (hdocuments name).trans (if_neg hname), ?_⟩
      obtain ⟨position, hstops⟩ := Store.exists_stopsAt_of_updateIn hfails
      have hafter := (hdocuments collection).trans (if_pos rfl)
      exact ⟨fault, position, herror, hafter ▸ hstops⟩

end

/-- Three books, the second one with tags that are no list. -/
def taggedBooks : Store :=
  { collections := .ofList [("books",
    [.object [("_id", .string "a"), ("tags", .array [])],
      .object [("_id", .string "b"), ("tags", .string "t")],
      .object [("_id", .string "c"), ("tags", .array [])]])] }

def tagAll : Json :=
  .single "$push" (.single "tags" (.string "t"))

/-- The first book gets a tag, and the update stops at the second one. -/
theorem stopsAt_taggedBooks :
    Store.StopsAt (.object []) tagAll [] (.query .pushNotArray) (taggedBooks.documents "books")
      ((StoreCall.after ⟨"books", .update (.object []) tagAll { multi := true }⟩
        taggedBooks).documents "books") 1 ∧
    (StoreCall.after ⟨"books", .update (.object []) tagAll { multi := true }⟩
        taggedBooks).documents "books" =
      [.object [("_id", .string "a"), ("tags", .array [.string "t"])],
        .object [("_id", .string "b"), ("tags", .string "t")],
        .object [("_id", .string "c"), ("tags", .array [])]] := by
  have hfails : StoreCall.outcome ⟨"books", .update (.object []) tagAll { multi := true }⟩
      taggedBooks = .error (.invalidQuery "books" (.query .pushNotArray)) := by rfl
  obtain ⟨-, hmany⟩ := StoreCall.intact_of_outcome_eq_error hfails
  obtain ⟨-, fault, position, herror, hstops⟩ := hmany _ _ _ rfl rfl
  cases herror
  obtain ⟨document, hdocument, hfault⟩ := hstops.fails
  have hposition : position = 1 := by
    rcases position with _ | _ | _ | position
    · cases hdocument
      cases hfault
    · rfl
    · cases hdocument
      cases hfault
    · cases hdocument
  exact ⟨hposition ▸ hstops, rfl⟩

end LinkedDocs
