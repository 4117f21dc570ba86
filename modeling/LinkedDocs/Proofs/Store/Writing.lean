import LinkedDocs.Proofs.Filter.Membership
import LinkedDocs.Proofs.Json.NamesOnce
import LinkedDocs.Proofs.Update.Changing
import LinkedDocs.Store.Basic

namespace LinkedDocs.Store

theorem documents_withDocuments (store : Store) (collection name : String) (documents : List Json) :
    (store.withDocuments collection documents).documents name =
      if name = collection then documents else store.documents name := by
  rw [Store.documents, withDocuments, NameMap.getD, NameMap.get?_insert]
  split
  · rfl
  · rfl

theorem documents_of_get? {store : Store} {name : String} {documents : List Json}
    (h : store.collections.get? name = some documents) : store.documents name = documents := by
  rw [Store.documents, NameMap.getD, h, Option.getD_some]

theorem documents_of_get?_eq_none {store : Store} {name : String}
    (h : store.collections.get? name = none) : store.documents name = [] := by
  rw [Store.documents, NameMap.getD, h, Option.getD_none]

theorem forall_documents {store : Store} {holds : String → Json → Prop}
    (h : ∀ entry ∈ store.collections.entries, ∀ document ∈ entry.2, holds entry.1 document) :
    ∀ name, ∀ document ∈ store.documents name, holds name document := by
  intro name document hdocument
  cases hdocuments : store.collections.get? name with
  | none =>
    rw [documents_of_get?_eq_none hdocuments] at hdocument
    cases hdocument
  | some documents =>
    rw [documents_of_get? hdocuments] at hdocument
    exact h (name, documents) (NameMap.mem_entries_iff.2 hdocuments) document hdocument

/-- Whether every object in a store has each of its names once. -/
def NamesOnce (store : Store) : Prop :=
  ∀ name, ∀ document ∈ store.documents name, document.namesOnce

theorem inCollection_eq_error {α : Type} {collection : String} {result : Except QueryFault α}
    {error : Error} (h : inCollection collection result = .error error) :
    ∃ fault, error = .invalidQuery collection fault := by
  obtain ⟨fault, -, rfl⟩ := mapError_eq_error_iff.1 h
  exact ⟨.query fault, rfl⟩

theorem withDocuments_eq_self {store : Store} {collection : String} {documents : List Json}
    (h : store.collections.get? collection = some documents) :
    store.withDocuments collection documents = store := by
  rw [withDocuments, NameMap.insert_eq_self h]

variable [Platform]

theorem namesOnce_of_prepare {collection : String} {issued next : Nat} {existing : List Json}
    {document stored : Json} (hnames : document.namesOnce)
    (h : prepare collection issued existing document = .ok (stored, next)) : stored.namesOnce := by
  unfold prepare at h
  cases document with
  | object fields =>
    obtain ⟨hnodup, hchildren⟩ := Json.namesOnce_object_iff.1 hnames
    dsimp only at h
    split at h
    case isTrue =>
      split at h
      · cases h
      · cases h
        exact hnames
    case isFalse hmissing =>
      have hnone : lookupName idField fields = none := by simpa using hmissing
      split at h
      · cases h
      · cases h
        exact Json.namesOnce_object_iff.2
          ⟨List.nodup_cons.2 ⟨NameMap.lookupName_eq_none_iff.1 hnone, hnodup⟩,
            List.forall_mem_cons.2 ⟨rfl, hchildren⟩⟩
  | _ => cases h

theorem namesOnce_of_prepareAll {collection : String} {issued next : Nat}
    {existing documents stored : List Json} (hnames : ∀ document ∈ documents, document.namesOnce)
    (h : prepareAll collection issued existing documents = .ok (stored, next)) :
    ∀ document ∈ stored, document.namesOnce := by
  induction documents generalizing issued existing stored with
  | nil =>
    cases h
    exact fun _ hmem => absurd hmem List.not_mem_nil
  | cons document rest ih =>
    obtain ⟨hfirst, hrest⟩ := List.forall_mem_cons.1 hnames
    rw [prepareAll] at h
    obtain ⟨⟨first, middle⟩, hprepared, h⟩ := bind_eq_ok_iff.1 h
    obtain ⟨⟨others, last⟩, hothers, h⟩ := bind_eq_ok_iff.1 h
    cases h
    exact List.forall_mem_cons.2 ⟨namesOnce_of_prepare hfirst hprepared, ih hrest hothers⟩

theorem namesOnce_of_load {store loaded : Store} (hstore : store.NamesOnce)
    {collections : List (String × Json)} (hnames : ∀ field ∈ collections, field.2.namesOnce)
    (h : ofFixture.load store collections = .ok loaded) : loaded.NamesOnce := by
  induction collections generalizing store with
  | nil =>
    cases h
    exact hstore
  | cons collection rest ih =>
    obtain ⟨name, documents⟩ := collection
    obtain ⟨hfirst, hrest⟩ := List.forall_mem_cons.1 hnames
    cases documents with
    | array documents =>
      rw [ofFixture.load] at h
      obtain ⟨⟨prepared, issued⟩, hprepared, h⟩ := bind_eq_ok_iff.1 h
      refine ih (fun other document hdocument => ?_) hrest h
      change document ∈ (store.withDocuments name prepared).documents other at hdocument
      rw [documents_withDocuments] at hdocument
      split at hdocument
      case isTrue =>
        exact namesOnce_of_prepareAll (Json.namesOnce_array_iff.1 hfirst) hprepared document hdocument
      case isFalse => exact hstore other document hdocument
    | _ => cases h

/-- A store that is loaded from a text has each name once in each object. -/
theorem namesOnce_of_ofFixtureText {text : String} {store : Store}
    (h : ofFixtureText text = .ok store) : store.NamesOnce := by
  unfold ofFixtureText at h
  split at h
  case h_2 => cases h
  case h_1 fixture hread =>
    have hnames := Json.namesOnce_of_read? hread
    cases fixture with
    | object collections =>
      refine namesOnce_of_load ?_ (Json.namesOnce_object_iff.1 hnames).2 h
      exact fun _ _ hdocument => absurd hdocument List.not_mem_nil
    | _ => cases h

theorem updateDocument?_cases {filter update : Json} {arrayFilters : List Json} {document : Json}
    {result : Option (Json × Bool)}
    (h : updateDocument? filter update arrayFilters document = .ok result) :
    (Filter.accepts document filter = .ok false ∧ result = none) ∨
      (Filter.accepts document filter = .ok true ∧ ∃ updated changed,
        Update.apply update arrayFilters document = .ok (updated, changed) ∧
          result = some (if changed then updated else document, changed)) := by
  unfold updateDocument? at h
  obtain ⟨matched, hmatched, h⟩ := bind_eq_ok_iff.1 h
  have haccepts := mapError_eq_ok_iff.1 hmatched
  cases matched with
  | false =>
    cases h
    exact .inl ⟨haccepts, rfl⟩
  | true =>
    obtain ⟨⟨updated, changed⟩, hupdated, h⟩ := bind_eq_ok_iff.1 h
    refine .inr ⟨haccepts, updated, changed, mapError_eq_ok_iff.1 hupdated, ?_⟩
    cases changed with
    | false =>
      cases h
      rfl
    | true =>
      simp only [Bool.not_true, Bool.false_eq_true, if_false] at h
      split at h
      · cases h
        rfl
      · cases h

/-- The document that takes the place of one under an update. -/
def afterUpdate (document : Json) (result : Option (Json × Bool)) : Json :=
  (result.map Prod.fst).getD document

/-- How an update takes a document to another one: it stays if it does not match, and it becomes all
that the update makes of it otherwise. -/
def Updated (filter update : Json) (arrayFilters : List Json) (old new : Json) : Prop :=
  (Filter.accepts old filter = .ok false ∧ new = old) ∨
    (Filter.accepts old filter = .ok true ∧ ∃ changed,
      Update.apply update arrayFilters old = .ok (new, changed))

theorem updated_afterUpdate {filter update old : Json} {arrayFilters : List Json}
    {result : Option (Json × Bool)}
    (h : updateDocument? filter update arrayFilters old = .ok result) :
    Updated filter update arrayFilters old (afterUpdate old result) := by
  rcases updateDocument?_cases h with ⟨hfalse, rfl⟩ | ⟨htrue, updated, changed, happly, rfl⟩
  · exact .inl ⟨hfalse, rfl⟩
  · refine .inr ⟨htrue, changed, ?_⟩
    cases changed with
    | true => exact happly
    | false =>
      -- the updated copy is dropped, which is the same since it was not changed
      obtain rfl := Update.eq_of_apply_unchanged happly
      exact happly

/-- An update of several documents replaces each of them in its place. -/
theorem forall₂_updateIn {filter update : Json} {options : UpdateOptions} (hmulti : options.multi)
    {documents others : List Json} {count : UpdateCount}
    (h : updateIn filter update options documents = (.ok count, others)) :
    List.Forall₂ (fun old new => ∃ result,
      updateDocument? filter update options.arrayFilters old = .ok result ∧
        new = afterUpdate old result) documents others := by
  induction documents generalizing others count with
  | nil =>
    cases h
    exact .nil
  | cons document rest ih =>
    rw [updateIn] at h
    cases hresult : updateDocument? filter update options.arrayFilters document with
    | error fault =>
      rw [hresult] at h
      cases h
    | ok result =>
      rw [hresult] at h
      cases hrest : updateIn filter update options rest with
      | mk outcome updatedRest =>
        cases result with
        | none =>
          rw [hrest] at h
          cases h
          exact .cons ⟨none, hresult, rfl⟩ (ih hrest)
        | some pair =>
          dsimp only at h
          rw [if_pos hmulti, hrest] at h
          obtain ⟨houtcome, rfl⟩ := Prod.mk.inj h
          obtain ⟨countRest, rfl, -⟩ := map_eq_ok_iff.1 houtcome
          exact .cons ⟨some pair, hresult, rfl⟩ (ih hrest)

theorem unmatched_of_evaluates {filter : Json} {documents : List Json}
    (h : Filter.Evaluates documents filter) :
    unmatched filter documents =
      .ok (documents.filter fun document => !Filter.matched filter document) := by
  induction documents with
  | nil => rfl
  | cons document rest ih =>
    obtain ⟨⟨hit, hhit⟩, hrest⟩ := List.forall_mem_cons.1 h
    rw [unmatched, hhit, ih hrest, List.filter_cons, Filter.matched_of_accepts hhit]
    cases hit <;> rfl

theorem evaluates_of_unmatched {filter : Json} {documents kept : List Json}
    (h : unmatched filter documents = .ok kept) : Filter.Evaluates documents filter := by
  induction documents generalizing kept with
  | nil => exact fun _ hmem => absurd hmem List.not_mem_nil
  | cons document rest ih =>
    rw [unmatched] at h
    obtain ⟨hit, hhit, h⟩ := bind_eq_ok_iff.1 h
    obtain ⟨others, hothers, -⟩ := bind_eq_ok_iff.1 h
    exact List.forall_mem_cons.2 ⟨⟨hit, hhit⟩, ih hothers⟩

theorem exists_updateDocument? {filter update : Json} {arrayFilters : List Json} {document : Json}
    {matched : Bool} (haccepts : Filter.accepts document filter = .ok matched)
    (happly : matched → ∃ updated changed,
      Update.apply update arrayFilters document = .ok (updated, changed) ∧
        (idOf updated).sameValue (idOf document)) :
    ∃ result, updateDocument? filter update arrayFilters document = .ok result := by
  rw [updateDocument?, haccepts]
  cases matched with
  | false => exact ⟨none, rfl⟩
  | true =>
    obtain ⟨updated, changed, hupdated, hid⟩ := happly rfl
    rw [hupdated]
    cases changed with
    | false => exact ⟨some (document, false), rfl⟩
    | true =>
      refine ⟨some (updated, true), ?_⟩
      change (if (idOf updated).sameValue (idOf document) then _ else _) = _
      rw [if_pos hid]
      rfl

/-- An update that succeeds on each document succeeds on all of them. -/
theorem exists_updateIn {filter update : Json} {options : UpdateOptions} (hmulti : options.multi)
    {documents : List Json}
    (h : ∀ document ∈ documents, ∃ result,
      updateDocument? filter update options.arrayFilters document = .ok result) :
    ∃ count others, updateIn filter update options documents = (.ok count, others) := by
  induction documents with
  | nil => exact ⟨_, _, rfl⟩
  | cons document rest ih =>
    obtain ⟨⟨result, hresult⟩, hrest⟩ := List.forall_mem_cons.1 h
    obtain ⟨count, others, hothers⟩ := ih hrest
    rw [updateIn, hresult]
    cases result with
    | none => exact ⟨count, document :: others, by rw [hothers]⟩
    | some pair =>
      dsimp only
      rw [if_pos hmulti, hothers]
      exact ⟨_, _, rfl⟩

theorem exists_update {before : Store} {collection : String} {filter changes : Json}
    {options : UpdateOptions} (hmulti : options.multi)
    (h : ∀ document ∈ before.documents collection, ∃ result,
      updateDocument? filter changes options.arrayFilters document = .ok result) :
    ∃ count after, before.update collection filter changes options = (.ok count, after) := by
  unfold update
  cases hdocuments : before.collections.get? collection with
  | none => exact ⟨_, _, rfl⟩
  | some documents =>
    rw [documents_of_get? hdocuments] at h
    obtain ⟨count, others, hothers⟩ := exists_updateIn hmulti h
    dsimp only
    rw [hothers]
    exact ⟨_, _, rfl⟩

theorem exists_deleteMany {before : Store} {collection : String} {filter : Json}
    (h : Filter.Evaluates (before.documents collection) filter) :
    ∃ count after, before.deleteMany collection filter = (.ok count, after) := by
  unfold deleteMany
  cases hdocuments : before.collections.get? collection with
  | none => exact ⟨_, _, rfl⟩
  | some documents =>
    rw [documents_of_get? hdocuments] at h
    dsimp only
    rw [unmatched_of_evaluates h]
    exact ⟨_, _, rfl⟩

theorem update_eq_error {store : Store} {collection : String} {filter changes : Json}
    {options : UpdateOptions} {error : Error}
    (h : (store.update collection filter changes options).1 = .error error) :
    ∃ fault others, error = .invalidQuery collection fault ∧
      updateIn filter changes options (store.documents collection) = (.error fault, others) ∧
      ∀ name, (store.update collection filter changes options).2.documents name =
        if name = collection then others else store.documents name := by
  unfold update at h ⊢
  split at h
  case h_1 => cases h
  case h_2 documents hdocuments =>
    obtain ⟨fault, hfault, rfl⟩ := mapError_eq_error_iff.1 h
    rw [documents_of_get? hdocuments]
    exact ⟨fault, _, rfl, Prod.ext hfault rfl, fun _ => documents_withDocuments _ _ _ _⟩

theorem deleteMany_eq_error {store after : Store} {collection : String} {filter : Json}
    {error : Error} (h : store.deleteMany collection filter = (.error error, after)) :
    (∃ fault, error = .invalidQuery collection fault) ∧ after = store := by
  unfold deleteMany at h
  split at h
  · cases h
  · split at h
    · cases h
    · cases h
      exact ⟨⟨_, rfl⟩, rfl⟩

theorem forall₂_documents_update {before after : Store} {collection : String}
    {filter changes : Json} {options : UpdateOptions} (hmulti : options.multi) {count : UpdateCount}
    (h : before.update collection filter changes options = (.ok count, after)) (name : String) :
    List.Forall₂ (fun old new => (name ≠ collection ∧ new = old) ∨
      (name = collection ∧ ∃ result,
        updateDocument? filter changes options.arrayFilters old = .ok result ∧
          new = afterUpdate old result)) (before.documents name) (after.documents name) := by
  unfold update at h
  cases hdocuments : before.collections.get? collection with
  | none =>
    rw [hdocuments] at h
    cases h
    refine List.forall₂_same.2 fun document hdocument => .inl ⟨?_, rfl⟩
    rintro rfl
    rw [documents_of_get?_eq_none hdocuments] at hdocument
    cases hdocument
  | some documents =>
    rw [hdocuments] at h
    obtain ⟨hresult, rfl⟩ := Prod.mk.inj h
    rw [documents_withDocuments]
    split
    case isTrue hname =>
      subst hname
      have hupdate : updateIn filter changes options documents =
          (.ok count, (updateIn filter changes options documents).2) :=
        Prod.ext (mapError_eq_ok_iff.1 hresult) rfl
      rw [documents_of_get? hdocuments]
      exact (forall₂_updateIn hmulti hupdate).imp fun _ _ hnew => .inr ⟨rfl, hnew⟩
    case isFalse hname => exact List.forall₂_same.2 fun _ _ => .inl ⟨hname, rfl⟩

/-- A delete leaves the documents that do not match, in their order. -/
theorem documents_deleteMany {before after : Store} {collection : String} {filter : Json}
    {count : Nat} (h : before.deleteMany collection filter = (.ok count, after)) :
    Filter.Evaluates (before.documents collection) filter ∧
      ∀ name, after.documents name =
        if name = collection then
          (before.documents collection).filter fun document => !Filter.matched filter document
        else before.documents name := by
  unfold deleteMany at h
  cases hdocuments : before.collections.get? collection with
  | none =>
    rw [hdocuments] at h
    cases h
    rw [documents_of_get?_eq_none hdocuments]
    refine ⟨fun _ hmem => absurd hmem List.not_mem_nil, fun name => ?_⟩
    split
    case isTrue hname => rw [hname, documents_of_get?_eq_none hdocuments, List.filter_nil]
    case isFalse => rfl
  | some documents =>
    rw [hdocuments] at h
    dsimp only at h
    split at h
    case h_2 => cases h
    case h_1 kept hkept =>
      obtain ⟨-, rfl⟩ := Prod.mk.inj h
      have hevaluates := evaluates_of_unmatched hkept
      rw [unmatched_of_evaluates hevaluates] at hkept
      cases hkept
      rw [documents_of_get? hdocuments]
      exact ⟨hevaluates, fun name => documents_withDocuments _ _ _ _⟩

theorem exists_updateIn_eq_self {filter update : Json} {options : UpdateOptions}
    {documents : List Json}
    (h : ∀ document ∈ documents, Filter.accepts document filter = .ok false) :
    ∃ count, updateIn filter update options documents = (.ok count, documents) := by
  induction documents with
  | nil => exact ⟨_, rfl⟩
  | cons document rest ih =>
    obtain ⟨hfirst, hrest⟩ := List.forall_mem_cons.1 h
    obtain ⟨count, hcount⟩ := ih hrest
    have hnone : updateDocument? filter update options.arrayFilters document = .ok none := by
      rw [updateDocument?, hfirst]
      rfl
    exact ⟨count, by rw [updateIn, hnone, hcount]⟩

/-- An update that matches no document leaves the store as it is. -/
theorem exists_update_eq_self {store : Store} {collection : String} {filter changes : Json}
    {options : UpdateOptions}
    (h : ∀ document ∈ store.documents collection, Filter.accepts document filter = .ok false) :
    ∃ count, store.update collection filter changes options = (.ok count, store) := by
  unfold update
  cases hdocuments : store.collections.get? collection with
  | none => exact ⟨_, rfl⟩
  | some documents =>
    rw [documents_of_get? hdocuments] at h
    obtain ⟨count, hcount⟩ := exists_updateIn_eq_self h
    dsimp only
    rw [hcount, withDocuments_eq_self hdocuments]
    exact ⟨_, rfl⟩

/-- So does a delete that matches none. -/
theorem exists_deleteMany_eq_self {store : Store} {collection : String} {filter : Json}
    (h : ∀ document ∈ store.documents collection, Filter.accepts document filter = .ok false) :
    ∃ count, store.deleteMany collection filter = (.ok count, store) := by
  unfold deleteMany
  cases hdocuments : store.collections.get? collection with
  | none => exact ⟨_, rfl⟩
  | some documents =>
    rw [documents_of_get? hdocuments] at h
    have hall : (documents.filter fun document => !Filter.matched filter document) = documents := by
      refine List.filter_eq_self.2 fun document hdocument => ?_
      rw [Filter.matched_of_accepts (h document hdocument)]
      rfl
    dsimp only
    rw [unmatched_of_evaluates fun document hdocument => ⟨_, h document hdocument⟩, hall]
    dsimp only
    rw [withDocuments_eq_self hdocuments]
    exact ⟨_, rfl⟩

theorem mem_documents_update {before after : Store} {collection : String} {filter changes : Json}
    {options : UpdateOptions} (hmulti : options.multi) {count : UpdateCount}
    (h : before.update collection filter changes options = (.ok count, after)) (name : String) :
    ∀ new ∈ after.documents name, ∃ old ∈ before.documents name,
      (name ≠ collection ∧ new = old) ∨
      (name = collection ∧ ∃ result,
        updateDocument? filter changes options.arrayFilters old = .ok result ∧
          new = afterUpdate old result) :=
  exists_of_forall₂ (forall₂_documents_update hmulti h name)

theorem mem_documents_deleteMany {before after : Store} {collection : String} {filter : Json}
    {count : Nat} (h : before.deleteMany collection filter = (.ok count, after)) (name : String) :
    ∀ document ∈ after.documents name, document ∈ before.documents name ∧
      (name = collection → Filter.accepts document filter = .ok false) := by
  obtain ⟨hevaluates, hdocuments⟩ := documents_deleteMany h
  intro document hdocument
  rw [hdocuments] at hdocument
  split at hdocument
  case isTrue hname =>
    subst hname
    obtain ⟨hmem, hunmatched⟩ := List.mem_filter.1 hdocument
    obtain ⟨verdict, hverdict⟩ := hevaluates document hmem
    refine ⟨hmem, fun _ => ?_⟩
    rw [Filter.matched_of_accepts hverdict, Bool.not_eq_true'] at hunmatched
    rw [hverdict, hunmatched]
  case isFalse hname => exact ⟨hdocument, fun heq => absurd heq hname⟩

end LinkedDocs.Store
