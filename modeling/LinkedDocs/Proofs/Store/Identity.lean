import LinkedDocs.Proofs.Json.Reaching
import LinkedDocs.Proofs.Path
import LinkedDocs.Proofs.Removal.Marking
import LinkedDocs.Proofs.Store.Finding
import LinkedDocs.Proofs.Store.Writing

namespace LinkedDocs.Store

open Json

/-- Documents whose ids are scalars, no two of them the same. -/
structure DistinctIds (documents : List Json) : Prop where
  isScalar : ∀ document ∈ documents, (idOf document).isScalar
  differ : (documents.map idOf).Pairwise Differ

/-- A store in which the ids of each collection are scalars that all differ. -/
def Identified (store : Store) : Prop :=
  ∀ name, DistinctIds (store.documents name)

instance : DecidableRel Differ := fun left right =>
  inferInstanceAs (Decidable (left.sameValue right = false))

instance (documents : List Json) : Decidable (DistinctIds documents) :=
  decidable_of_iff ((∀ document ∈ documents, (idOf document).isScalar) ∧
    (documents.map idOf).Pairwise Differ)
    ⟨fun h => ⟨h.1, h.2⟩, fun h => ⟨h.isScalar, h.differ⟩⟩

theorem identified_of_forall {store : Store}
    (h : ∀ entry ∈ store.collections.entries, DistinctIds entry.2) : store.Identified := by
  intro name
  rw [Store.documents, NameMap.getD]
  cases hdocuments : store.collections.get? name with
  | none => exact ⟨fun _ hmem => absurd hmem List.not_mem_nil, .nil⟩
  | some documents => exact h (name, documents) (NameMap.mem_entries_iff.2 hdocuments)

theorem idOf_object {fields : List (String × Json)} {id : Json}
    (h : lookupName idField fields = some id) : idOf (.object fields) = id := by
  change ((lookupName idField fields).getD .null) = id
  rw [h, Option.getD_some]

theorem exists_fields_of_isScalar {document : Json} (h : (idOf document).isScalar) :
    ∃ fields, document = .object fields ∧ lookupName idField fields = some (idOf document) := by
  cases document with
  | object fields =>
    cases hlookup : lookupName idField fields with
    | some id => exact ⟨fields, rfl, by rw [idOf_object hlookup, hlookup]⟩
    | none =>
      have hnull : idOf (.object fields) = .null := by
        change ((lookupName idField fields).getD .null) = .null
        rw [hlookup, Option.getD_none]
      rw [hnull] at h
      cases h
  | _ => cases h

theorem splitPath_idField : splitPath idField = [idField] :=
  splitPath_eq_singleton (by decide)

theorem lookup_idField {document : Json} (h : (idOf document).isScalar) :
    Filter.lookup document idField = [some (idOf document)] := by
  obtain ⟨fields, hdocument, hlookup⟩ := exists_fields_of_isScalar h
  rw [Filter.lookup, splitPath_idField, hdocument]
  rw [hdocument] at hlookup
  simp only [Filter.candidates, hlookup]

theorem getPath?_idField {document : Json} (h : (idOf document).isScalar) :
    document.getPath? idField = some (idOf document) := by
  obtain ⟨fields, hdocument, hlookup⟩ := exists_fields_of_isScalar h
  rw [getPath?, if_neg (by decide), splitPath_idField]
  rw [hdocument] at hlookup ⊢
  simp only [follow?, step?, hlookup, Option.bind_some]

theorem equalsTarget_of_isScalar {id : Json} (h : id.isScalar) (key : Json) :
    Filter.equalsTarget key (some id) = id.sameValue key := by
  cases id with
  | array => cases h
  | _ => rfl

theorem isMarked_idField : isMarked idField = false := by decide

theorem pairwise_differ_concat {documents : List Json} (h : (documents.map idOf).Pairwise Differ)
    {document : Json} (hdiffer : ∀ other ∈ documents, Differ (idOf other) (idOf document)) :
    ((documents ++ [document]).map idOf).Pairwise Differ := by
  rw [List.map_append, List.pairwise_append]
  refine ⟨h, List.pairwise_singleton _ _, ?_⟩
  simpa using hdiffer

/-- Ids that differ still differ when each of them is replaced by one with the same value. -/
theorem pairwise_differ_of_forall₂ {olds news : List Json}
    (hsame : List.Forall₂ (fun old new => (idOf new).sameValue (idOf old)) olds news)
    (h : (olds.map idOf).Pairwise Differ) : (news.map idOf).Pairwise Differ := by
  induction hsame with
  | nil => exact .nil
  | @cons old new olds news hfirst hrest ih =>
    obtain ⟨hold, holds⟩ := List.pairwise_cons.1 h
    refine List.pairwise_cons.2 ⟨fun id hid => ?_, ih holds⟩
    obtain ⟨other, hother, rfl⟩ := List.mem_map.1 hid
    obtain ⟨origin, horigin, hsameOther⟩ := exists_of_forall₂ hrest other hother
    have hdiffer : Differ (idOf old) (idOf origin) := hold _ (List.mem_map_of_mem horigin)
    refine Bool.eq_false_iff.2 fun hboth => ?_
    rw [Differ, sameValue_trans (sameValue_symm hfirst) (sameValue_trans hboth hsameOther)] at hdiffer
    cases hdiffer

theorem DistinctIds.concat {documents : List Json} (h : DistinctIds documents) {document : Json}
    (hid : (idOf document).isScalar)
    (hdiffer : ∀ other ∈ documents, Differ (idOf other) (idOf document)) :
    DistinctIds (documents ++ [document]) where
  isScalar := List.forall_mem_append.2 ⟨h.isScalar, List.forall_mem_singleton.2 hid⟩
  differ := pairwise_differ_concat h.differ hdiffer

theorem documents_withDocuments_append (store : Store) (name : String) (documents : List Json)
    (other : String) :
    (store.withDocuments name (store.documents name ++ documents)).documents other =
      store.documents other ++ if other = name then documents else [] := by
  rw [documents_withDocuments]
  split
  case isTrue hname => rw [hname]
  case isFalse => rw [List.append_nil]

theorem DistinctIds.replace {front back : List Json} {document current : Json}
    (h : DistinctIds (front ++ document :: back))
    (hsame : (idOf current).sameValue (idOf document)) :
    DistinctIds (front ++ current :: back) where
  isScalar := by
    have hdocument := h.isScalar document (by simp)
    intro other hother
    rcases List.mem_append.1 hother with hfront | hback
    · exact h.isScalar other (List.mem_append_left _ hfront)
    · rcases List.mem_cons.1 hback with rfl | hback
      · exact isScalar_of_sameValue hsame hdocument
      · exact h.isScalar other (List.mem_append_right _ (List.mem_cons_of_mem _ hback))
  differ := pairwise_differ_of_forall₂ (List.rel_append (List.forall₂_same.2 fun _ _ =>
    sameValue_refl _) (.cons hsame (List.forall₂_same.2 fun _ _ => sameValue_refl _))) h.differ

variable [Platform]

theorem accepts_idField {document key : Json} (hid : (idOf document).isScalar)
    (hkey : key.isScalar) :
    Filter.accepts document (.single idField key) = .ok ((idOf document).sameValue key) := by
  rw [Filter.accepts_value isMarked_idField _ (isObject_eq_false_of_isScalar hkey), lookup_idField hid, Filter.anyEquals,
    List.any_cons, List.any_nil, Bool.or_false, equalsTarget_of_isScalar hid]

theorem accepts_oneOf_idField {document : Json} (hid : (idOf document).isScalar)
    (keys : List Json) :
    Filter.accepts document (.single idField (.oneOf keys)) = .ok (holds keys (idOf document)) := by
  rw [Filter.accepts_oneOf isMarked_idField, lookup_idField hid]
  have hcomm (key : Json) : (idOf document).sameValue key = key.sameValue (idOf document) :=
    sameValue_comm _ key
  simp only [Filter.anyAmong, List.any_cons, List.any_nil, Bool.or_false,
    equalsTarget_of_isScalar hid, hcomm, holds]

/-- When as many documents have one of some keys as there are keys, each key has a document. -/
theorem exists_of_length_matching {documents keys : List Json} (hids : DistinctIds documents)
    (hlength : (Filter.matching documents (.single idField (.oneOf keys))).length = keys.length) :
    ∀ key ∈ keys, ∃ document ∈ documents, (idOf document).sameValue key := by
  let found := Filter.matching documents (.single idField (.oneOf keys))
  have hsub : found.Sublist documents := List.filter_sublist
  have hheld : ∀ id ∈ found.map idOf, holds keys id := by
    intro id hid
    obtain ⟨document, hdocument, rfl⟩ := List.mem_map.1 hid
    obtain ⟨hmem, haccepts⟩ := Filter.mem_matching_iff.1 hdocument
    rwa [accepts_oneOf_idField (hids.isScalar _ hmem), Except.ok.injEq] at haccepts
  have hall := holds_of_length_le (hids.differ.sublist (hsub.map idOf)) hheld
    (by simp [found, hlength])
  intro key hkey
  obtain ⟨id, hid, hsame⟩ := holds_iff.1 (hall key hkey)
  obtain ⟨document, hdocument, rfl⟩ := List.mem_map.1 hid
  exact ⟨document, hsub.subset hdocument, hsame⟩

theorem documents_deleteMany_idField {store : Store} {name : String} {key : Json}
    (hids : ∀ document ∈ store.documents name, (idOf document).isScalar) (hkey : key.isScalar) :
    ∃ count after, store.deleteMany name (.single idField key) = (.ok count, after) ∧
      ∀ other, after.documents other =
        if other = name then
          (store.documents name).filter fun document => !(idOf document).sameValue key
        else store.documents other := by
  have haccepts : ∀ document ∈ store.documents name, Filter.accepts document (.single idField key) =
      .ok ((idOf document).sameValue key) :=
    fun document hdocument => accepts_idField (hids document hdocument) hkey
  have hkept : ((store.documents name).filter fun document =>
      !Filter.matched (.single idField key) document) =
        (store.documents name).filter fun document => !(idOf document).sameValue key :=
    List.filter_congr fun document hdocument => by
      rw [Filter.matched_of_accepts (haccepts document hdocument)]
  obtain ⟨count, after, hdelete⟩ :=
    exists_deleteMany fun document hdocument => ⟨_, haccepts document hdocument⟩
  exact ⟨count, after, hdelete, fun other => hkept ▸ (documents_deleteMany hdelete).2 other⟩

/-- How a document is stored: as it is, or behind an id that it did not have. -/
inductive StoredAs : Json → Json → Prop
  | given {fields : List (String × Json)} {id : Json} (hid : lookupName idField fields = some id) :
      StoredAs (.object fields) (.object fields)
  | identified {fields : List (String × Json)} (id : Json)
      (hid : lookupName idField fields = none) :
      StoredAs (.object fields) (.object ((idField, id) :: fields))

/-- Whether a document has no id or a scalar one. -/
def offersId (document : Json) : Bool :=
  (document.field? idField).all Json.isScalar

omit [Platform] in
/-- Below a name that is not the id, a document is stored with the values that it has. -/
theorem StoredAs.valuesAt_eq {document stored : Json} (h : StoredAs document stored)
    {segment : String} (hsegment : segment ≠ idField) (rest : List String) :
    stored.valuesAt (segment :: rest) = document.valuesAt (segment :: rest) := by
  cases h with
  | given => rfl
  | identified id =>
    unfold valuesAt
    simp only [lookupName, Ne.symm hsegment, if_false]

theorem storedAs_of_prepare {name : String} {issued next : Nat} {existing : List Json}
    {document stored : Json} (h : prepare name issued existing document = .ok (stored, next)) :
    StoredAs document stored ∧ (offersId document → (idOf stored).isScalar) ∧
      ∀ other ∈ existing, Differ (idOf other) (idOf stored) := by
  unfold prepare at h
  cases document with
  | object fields =>
    dsimp only at h
    split at h
    case isTrue hgiven =>
      obtain ⟨id, hid⟩ := Option.isSome_iff_exists.1 hgiven
      split at h
      case isTrue => cases h
      case isFalse hnone =>
        cases h
        refine ⟨.given hid, fun hoffers => ?_, by simpa [Differ] using hnone⟩
        rw [idOf_object hid]
        simpa [offersId, Json.field?, Json.object?, hid] using hoffers
    case isFalse hmissing =>
      split at h
      case isTrue => cases h
      case isFalse hnone =>
        cases h
        exact ⟨.identified _ (by simpa using hmissing), fun _ => rfl,
          by simpa [Differ] using hnone⟩
  | _ => cases h

theorem storedAs_of_prepareAll {name : String} {issued next : Nat}
    {existing documents stored : List Json} (hids : DistinctIds existing)
    (hoffers : ∀ document ∈ documents, offersId document)
    (h : prepareAll name issued existing documents = .ok (stored, next)) :
    (∀ new ∈ stored, ∃ document ∈ documents, StoredAs document new) ∧
      DistinctIds (existing ++ stored) := by
  induction documents generalizing issued existing stored with
  | nil =>
    cases h
    exact ⟨fun _ hnew => absurd hnew List.not_mem_nil, by rwa [List.append_nil]⟩
  | cons document rest ih =>
    obtain ⟨hfirst, hrest⟩ := List.forall_mem_cons.1 hoffers
    rw [prepareAll] at h
    obtain ⟨⟨first, middle⟩, hprepared, h⟩ := bind_eq_ok_iff.1 h
    obtain ⟨⟨others, last⟩, hothers, h⟩ := bind_eq_ok_iff.1 h
    cases h
    obtain ⟨hstored, hscalar, hdiffer⟩ := storedAs_of_prepare hprepared
    obtain ⟨hall, hdistinct⟩ := ih (hids.concat (hscalar hfirst) hdiffer) hrest hothers
    refine ⟨List.forall_mem_cons.2 ⟨⟨document, List.mem_cons_self, hstored⟩, ?_⟩, ?_⟩
    · intro new hnew
      obtain ⟨given, hgiven, hstoredAs⟩ := hall new hnew
      exact ⟨given, List.mem_cons_of_mem _ hgiven, hstoredAs⟩
    · rwa [List.append_assoc] at hdistinct

/-- Two stores with the same documents, in the same order. -/
def SameDocuments (before after : Store) : Prop :=
  ∀ name, after.documents name = before.documents name

/-- A store with documents added to a collection. -/
def Appends (before : Store) (name : String) (documents : List Json) (after : Store) : Prop :=
  ∀ other, after.documents other = before.documents other ++ if other = name then documents else []

omit [Platform] in
theorem sameDocuments_withDocuments (store : Store) (name : String) :
    store.SameDocuments (store.withDocuments name (store.documents name)) := by
  intro other
  have happend := documents_withDocuments_append store name [] other
  simpa using happend

theorem insertOne_cases (store : Store) (name : String) (document : Json) :
    (∃ error after, store.insertOne name document = (.error error, after) ∧
      store.SameDocuments after) ∨
    ∃ stored after, store.insertOne name document = (.ok stored, after) ∧
      store.Appends name [stored] after ∧ StoredAs document stored ∧
      (offersId document → (idOf stored).isScalar) ∧
      ∀ other ∈ store.documents name, Differ (idOf other) (idOf stored) := by
  unfold insertOne
  dsimp only
  cases hprepare : prepare name store.issued (store.documents name) document with
  | error error => exact .inl ⟨error, _, rfl, sameDocuments_withDocuments store name⟩
  | ok result =>
    obtain ⟨stored, issued⟩ := result
    exact .inr ⟨stored, _, rfl, documents_withDocuments_append store name [stored],
      storedAs_of_prepare hprepare⟩

theorem insertMany_cases (store : Store) (name : String) (documents : List Json) :
    (∃ error after, store.insertMany name documents = (.error error, after) ∧
      store.SameDocuments after) ∨
    ∃ stored after, store.insertMany name documents = (.ok stored, after) ∧
      store.Appends name stored after ∧
      (DistinctIds (store.documents name) → (∀ document ∈ documents, offersId document) →
        (∀ new ∈ stored, ∃ document ∈ documents, StoredAs document new) ∧
          DistinctIds (store.documents name ++ stored)) := by
  unfold insertMany
  dsimp only
  cases hprepare : prepareAll name store.issued (store.documents name) documents with
  | error error => exact .inl ⟨error, _, rfl, sameDocuments_withDocuments store name⟩
  | ok result =>
    obtain ⟨stored, issued⟩ := result
    exact .inr ⟨stored, _, rfl, documents_withDocuments_append store name stored,
      fun hids hoffers => storedAs_of_prepareAll hids hoffers hprepare⟩

omit [Platform] in
theorem storedAs_of_keepId {id current : Json} {fields : List (String × Json)}
    (h : keepId id fields = .ok current) :
    StoredAs (.object fields) current ∧ (idOf current).sameValue id := by
  unfold keepId at h
  split at h
  case h_1 given hgiven =>
    split at h
    case isTrue hsame =>
      cases h
      exact ⟨.given hgiven, by rwa [idOf_object hgiven]⟩
    case isFalse => cases h
  case h_2 hmissing =>
    cases h
    exact ⟨.identified id hmissing, sameValue_refl id⟩

theorem replaceIn_cases {filter : Json} {fields : List (String × Json)} {documents others : List Json}
    {result : Option Replacement} (h : replaceIn filter fields documents = .ok (result, others)) :
    (result = none ∧ others = documents) ∨
    ∃ front document back current, result = some ⟨document, current⟩ ∧
      documents = front ++ document :: back ∧ others = front ++ current :: back ∧
      StoredAs (.object fields) current ∧ (idOf current).sameValue (idOf document) := by
  induction documents generalizing others with
  | nil =>
    cases h
    exact .inl ⟨rfl, rfl⟩
  | cons document rest ih =>
    rw [replaceIn] at h
    obtain ⟨hit, -, h⟩ := bind_eq_ok_iff.1 h
    cases hit with
    | true =>
      obtain ⟨current, hcurrent, h⟩ := bind_eq_ok_iff.1 h
      cases h
      exact .inr ⟨[], document, rest, current, rfl, rfl, rfl, storedAs_of_keepId hcurrent⟩
    | false =>
      obtain ⟨⟨replacement, replaced⟩, hrest, h⟩ := bind_eq_ok_iff.1 h
      cases h
      rcases ih hrest with ⟨rfl, rfl⟩ | ⟨front, old, back, current, rfl, rfl, rfl, hcurrent⟩
      · exact .inl ⟨rfl, rfl⟩
      · exact .inr ⟨document :: front, old, back, current, rfl, rfl, rfl, hcurrent⟩

theorem replaceOne_cases (store : Store) (name : String) (filter document : Json) :
    (∃ result after, store.replaceOne name filter document = (result, after) ∧
      store.SameDocuments after ∧ ∀ replacement, result ≠ .ok (some replacement)) ∨
    ∃ front old back current after,
      store.replaceOne name filter document = (.ok (some ⟨old, current⟩), after) ∧
      store.documents name = front ++ old :: back ∧ StoredAs document current ∧
      (idOf current).sameValue (idOf old) ∧ ∀ other, after.documents other =
        if other = name then front ++ current :: back else store.documents other := by
  unfold replaceOne
  cases hdocuments : store.collections.get? name with
  | none => exact .inl ⟨_, store, rfl, fun _ => rfl, by simp⟩
  | some documents =>
    have heq : store.documents name = documents := by
      rw [Store.documents, NameMap.getD, hdocuments, Option.getD_some]
    cases document with
    | object fields =>
      dsimp only
      cases hreplace : replaceIn filter fields documents with
      | error fault => exact .inl ⟨_, store, rfl, fun _ => rfl, by simp⟩
      | ok result =>
        obtain ⟨replacement, others⟩ := result
        rcases replaceIn_cases hreplace with
          ⟨rfl, rfl⟩ | ⟨front, old, back, current, rfl, rfl, rfl, hstored, hsame⟩
        · refine .inl ⟨_, _, rfl, ?_, by simp⟩
          rw [← heq]
          exact sameDocuments_withDocuments store name
        · exact .inr ⟨front, old, back, current, _, rfl, heq, hstored, hsame,
            fun other => documents_withDocuments _ _ _ _⟩
    | _ => exact .inl ⟨_, store, rfl, fun _ => rfl, by simp⟩

end LinkedDocs.Store
