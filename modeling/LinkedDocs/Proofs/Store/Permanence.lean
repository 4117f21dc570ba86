import LinkedDocs.Platform.Native
import LinkedDocs.Proofs.Store.Runs

/-!
Ids are permanent. An update or a replacement leaves each document in its place with an id field of
the same value, unless the id is null. A missing id reads as null, so an update may take a null away,
and the document has no id then until it is replaced.
-/

namespace LinkedDocs

open Json

/-- Whether a request changes documents in their places. -/
def StoreRequest.changesInPlace : StoreRequest → Bool
  | .update _ _ _ => true
  | .replaceOne _ _ => true
  | _ => false

section

variable [Platform]

namespace Store

/-- Whether a document has an id field with the value of the id of another one. -/
def HasIdOf (old new : Json) : Prop :=
  ∃ id, new.field? idField = some id ∧ id.sameValue (idOf old)

/-- Whether a document whose id is null or missing takes one without an id in its place. -/
def LosesNull (old new : Json) : Prop :=
  (idOf old).isNull ∧ new.field? idField = none

omit [Platform] in
theorem hasIdOf_or_losesNull {old new : Json} (h : (idOf new).sameValue (idOf old)) :
    HasIdOf old new ∨ LosesNull old new := by
  cases hfield : new.field? idField with
  | some id =>
    have hid : idOf new = id := by rw [idOf, fieldOrNull, hfield, Option.getD_some]
    exact .inl ⟨id, hfield, hid ▸ h⟩
  | none =>
    have hid : idOf new = .null := by rw [idOf, fieldOrNull, hfield, Option.getD_none]
    rw [hid] at h
    exact .inr ⟨(isNull_congr h).symm, hfield⟩

omit [Platform] in
theorem StoredAs.hasIdOf {given old new : Json} (hstored : StoredAs given new)
    (h : (idOf new).sameValue (idOf old)) : HasIdOf old new := by
  refine (hasIdOf_or_losesNull h).resolve_right fun ⟨_, hnone⟩ => ?_
  cases hstored with
  | @given fields id hid =>
    have hsome : (object fields).field? idField = some id := hid
    rw [hsome] at hnone
    cases hnone
  | identified => cases hnone

/-- A replacement leaves every document but one as it is, and that one with an id field. -/
theorem forall₂_hasIdOf_replaceOne (store : Store) (collection : String) (filter document : Json)
    (name : String) :
    List.Forall₂ (fun old new => new = old ∨ HasIdOf old new) (store.documents name)
      ((store.replaceOne collection filter document).2.documents name) := by
  have hsame (documents : List Json) :
      List.Forall₂ (fun old new => new = old ∨ HasIdOf old new) documents documents :=
    List.forall₂_same.2 fun _ _ => .inl rfl
  rcases replaceOne_cases store collection filter document with
    ⟨_, after, hreplace, hunchanged, -⟩ |
    ⟨front, old, back, current, after, hreplace, hdocuments, hstored, hid, hafter⟩
  · rw [hreplace, hunchanged name]
    exact hsame _
  · rw [hreplace, hafter]
    split
    case isTrue hname =>
      rw [hname, hdocuments]
      exact List.rel_append (hsame front) (.cons (.inr (hstored.hasIdOf hid)) (hsame back))
    case isFalse => exact hsame _

end Store

/-- An update or a replacement leaves each document in its place with an id field of the same value.
Only a document whose id is null or missing may have none afterwards, and where it was replaced it
has one. -/
theorem StoreCall.forall₂_hasIdOf_after {call : StoreCall} (hcall : call.request.changesInPlace)
    (store : Store) (name : String) :
    List.Forall₂ (fun old new => Store.HasIdOf old new ∨ Store.LosesNull old new ∧
        (call.request.method = .replaceOne → new = old))
      (store.documents name) ((call.after store).documents name) := by
  obtain ⟨collection, request⟩ := call
  cases request with
  | update filter changes options =>
    refine (Store.forall₂_replaces_update store collection filter changes options name).imp ?_
    intro old new hreplaces
    exact (Store.hasIdOf_or_losesNull hreplaces.2).imp_right fun hloses => ⟨hloses, nofun⟩
  | replaceOne filter document =>
    refine (Store.forall₂_hasIdOf_replaceOne store collection filter document name).imp ?_
    rintro old new (rfl | hhas)
    · exact (Store.hasIdOf_or_losesNull (sameValue_refl _)).imp_right fun hloses =>
        ⟨hloses, fun _ => rfl⟩
    · exact .inl hhas
  | _ => cases hcall

end

def bookWithId (id : Json) : Json :=
  .object [("_id", id), ("title", .string "t")]

def libraryOf (id : Json) : Store :=
  { collections := .ofList [("books", [bookWithId id])] }

/-- Replaces the first book by one with another title and no id of its own. -/
def retitleFirst : StoreCall :=
  ⟨"books", .replaceOne (.object []) (.object [("title", .string "u")])⟩

theorem hasIdOf_retitled : ∃ new,
    (retitleFirst.after (libraryOf (.string "b"))).documents "books" = [new] ∧
      Store.HasIdOf (bookWithId (.string "b")) new := by
  have hcall : retitleFirst.request.changesInPlace := rfl
  have hafter : (retitleFirst.after (libraryOf (.string "b"))).documents "books" =
      [.object [("_id", .string "b"), ("title", .string "u")]] := by rfl
  have hkept := StoreCall.forall₂_hasIdOf_after hcall (libraryOf (.string "b")) "books"
  have hbefore : (libraryOf (.string "b")).documents "books" = [bookWithId (.string "b")] := by rfl
  rw [hbefore, hafter] at hkept
  obtain _ | ⟨hhas | ⟨⟨hnull, -⟩, -⟩, -⟩ := hkept
  · exact ⟨_, hafter, hhas⟩
  · cases hnull

/-- Unsets the ids of the books. -/
def unsetIds : StoreCall :=
  ⟨"books", .update (.object []) (.single "$unset" (.single "_id" (.bool true))) {}⟩

/-- A book that was loaded with the id null has no id after its id was unset. -/
theorem not_hasIdOf_unset : ∃ new,
    Store.ofFixture (.single "books" (.array [bookWithId .null])) = .ok (libraryOf .null) ∧
      (unsetIds.after (libraryOf .null)).documents "books" = [new] ∧
        ¬Store.HasIdOf (bookWithId .null) new := by
  refine ⟨.object [("title", .string "t")], by rfl, by rfl, ?_⟩
  rintro ⟨id, hid, -⟩
  cases hid

end LinkedDocs
