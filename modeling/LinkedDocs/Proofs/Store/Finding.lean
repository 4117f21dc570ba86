import LinkedDocs.Collection.LazyDocuments
import LinkedDocs.Platform.Native
import LinkedDocs.Proofs.Collection.Reading
import LinkedDocs.Proofs.Filter.Membership

namespace LinkedDocs

namespace Store

def inRoom {α : Type} (room : Option Nat) (items : List α) : List α :=
  match room with
  | none => items
  | some limit => items.take limit

theorem inRoom_nil {α : Type} (room : Option Nat) : inRoom room ([] : List α) = [] := by
  cases room <;> simp [inRoom]

theorem inRoom_cons {α : Type} {room : Option Nat} (hroom : room ≠ some 0) (first : α)
    (rest : List α) : inRoom room (first :: rest) = first :: inRoom (room.map (· - 1)) rest := by
  cases room with
  | none => rfl
  | some limit =>
    cases limit with
    | zero => exact absurd rfl hroom
    | succ limit => simp [inRoom]

theorem length_inRoom {α : Type} (room : Option Nat) (items : List α) :
    (inRoom room items).length = room.elim items.length fun limit => min limit items.length := by
  cases room with
  | none => rfl
  | some limit => exact List.length_take

theorem inRoom_sublist {α : Type} (room : Option Nat) (items : List α) :
    (inRoom room items).Sublist items := by
  cases room with
  | none => exact List.Sublist.refl items
  | some limit => exact List.take_sublist limit items

end Store

section

variable [Platform]

namespace Store

theorem findIn_eq_ok {filter : Json} {documents matched : List Json}
    (h : findIn filter none 0 none documents = .ok matched) (projection : Option (List String))
    (skip : Nat) (room : Option Nat) :
    findIn filter projection skip room documents =
      .ok ((inRoom room (matched.drop skip)).map (view projection)) := by
  induction documents generalizing matched skip room with
  | nil =>
    cases h
    simp [findIn, inRoom_nil]
  | cons document rest ih =>
    simp only [findIn, reduceCtorEq, if_false] at h
    obtain ⟨accepted, haccepted, h⟩ := bind_eq_ok_iff.1 h
    unfold findIn
    by_cases hroom : room = some 0
    · simp [hroom, inRoom]
    · rw [if_neg hroom, haccepted, ok_bind]
      cases accepted with
      | false => exact ih h skip room
      | true =>
        obtain ⟨others, hothers, heq⟩ := bind_eq_ok_iff.1 h
        cases heq
        cases skip with
        | zero =>
          simp only [if_true, List.drop_zero, inRoom_cons hroom, List.map_cons]
          rw [ih hothers 0 (room.map (· - 1)), List.drop_zero]
          rfl
        | succ skip => exact ih hothers skip room

/-- What is found, with whatever options, are documents as projected. -/
theorem mem_findIn {filter : Json} {projection : Option (List String)} {skip : Nat}
    {room : Option Nat} {documents found : List Json}
    (h : findIn filter projection skip room documents = .ok found) :
    ∀ other ∈ found, ∃ document ∈ documents, other = view projection document := by
  induction documents generalizing skip room found with
  | nil =>
    cases h
    exact fun _ hmem => absurd hmem List.not_mem_nil
  | cons document rest ih =>
    have hthere {others : List Json}
        (hothers : ∀ other ∈ others, ∃ before ∈ rest, other = view projection before) :
        ∀ other ∈ others, ∃ before ∈ document :: rest, other = view projection before := by
      intro other hother
      obtain ⟨before, hbefore, heq⟩ := hothers other hother
      exact ⟨before, List.mem_cons_of_mem _ hbefore, heq⟩
    unfold findIn at h
    split at h
    case isTrue =>
      cases h
      exact fun _ hmem => absurd hmem List.not_mem_nil
    case isFalse =>
      obtain ⟨accepted, -, h⟩ := bind_eq_ok_iff.1 h
      cases accepted with
      | false => exact hthere (ih h)
      | true =>
        cases skip with
        | succ skip => exact hthere (ih h)
        | zero =>
          obtain ⟨others, hothers, h⟩ := bind_eq_ok_iff.1 h
          cases h
          exact List.forall_mem_cons.2 ⟨⟨document, List.mem_cons_self, rfl⟩, hthere (ih hothers)⟩

theorem findIn_matching {filter : Json} {documents : List Json}
    (h : Filter.Evaluates documents filter) :
    findIn filter none 0 none documents = .ok (Filter.matching documents filter) := by
  induction documents with
  | nil => rfl
  | cons document rest ih =>
    obtain ⟨⟨verdict, hverdict⟩, hrest⟩ := List.forall_mem_cons.1 h
    simp only [findIn, reduceCtorEq, if_false, hverdict, ok_bind]
    cases verdict with
    | false =>
      rw [Filter.matching, List.filter_cons_of_neg (by simp [Filter.matched, hverdict])]
      exact ih hrest
    | true =>
      rw [Filter.matching, List.filter_cons_of_pos (by simp [Filter.matched, hverdict])]
      change (findIn filter none 0 none rest >>= _) = _
      rw [ih hrest]
      rfl

/-- A search without a limit looks at all documents. -/
theorem evaluates_of_findIn {filter : Json} {projection : Option (List String)} {skip : Nat}
    {documents found : List Json} (h : findIn filter projection skip none documents = .ok found) :
    Filter.Evaluates documents filter := by
  induction documents generalizing skip found with
  | nil => exact fun _ hmem => absurd hmem List.not_mem_nil
  | cons document rest ih =>
    simp only [findIn, reduceCtorEq, if_false, Option.map_none] at h
    obtain ⟨accepted, haccepted, h⟩ := bind_eq_ok_iff.1 h
    refine List.forall_mem_cons.2 ⟨⟨accepted, haccepted⟩, ?_⟩
    cases accepted with
    | false => exact ih h
    | true =>
      cases skip with
      | succ skip => exact ih h
      | zero =>
        obtain ⟨others, hothers, -⟩ := bind_eq_ok_iff.1 h
        exact ih hothers

theorem find_matching {store : Store} {collection : String} {filter : Json}
    (h : Filter.Evaluates (store.documents collection) filter) :
    store.find collection filter = .ok (Filter.matching (store.documents collection) filter) := by
  rw [find, inCollection, findIn_matching h]
  rfl

theorem countIn_matching {filter : Json} {documents : List Json}
    (h : Filter.Evaluates documents filter) (room : Option Nat) :
    countIn filter room documents =
      .ok (inRoom room (Filter.matching documents filter)).length := by
  induction documents generalizing room with
  | nil =>
    rw [Filter.matching, List.filter_nil, inRoom_nil]
    rfl
  | cons document rest ih =>
    obtain ⟨⟨verdict, hverdict⟩, hrest⟩ := List.forall_mem_cons.1 h
    rw [countIn]
    by_cases hroom : room = some 0
    · simp [hroom, inRoom]
    · rw [if_neg hroom, hverdict, ok_bind]
      cases verdict with
      | false =>
        rw [Filter.matching, List.filter_cons_of_neg (by simp [Filter.matched, hverdict])]
        exact ih hrest room
      | true =>
        rw [Filter.matching, List.filter_cons_of_pos (by simp [Filter.matched, hverdict]),
          inRoom_cons hroom, List.length_cons, if_pos rfl, ih hrest]
        rfl

/-- Finding with options returns a slice of all matching documents, each one as projected. -/
theorem find_eq_ok {store : Store} {collection : String} {filter : Json} {matched : List Json}
    (h : store.find collection filter = .ok matched) (options : FindOptions) :
    store.find collection filter options =
      .ok ((inRoom options.limit (matched.drop options.skip)).map (view options.projection)) := by
  rw [find, inCollection, findIn_eq_ok (mapError_eq_ok_iff.1 h)]
  rfl

/-- What is found of all matching documents, with or without a projection. -/
theorem find_eq_ok_iff {store : Store} {collection : String} {filter : Json}
    {projection : Option (List String)} {found : List Json} :
    store.find collection filter { projection } = .ok found ↔
      Filter.Evaluates (store.documents collection) filter ∧
        found = (Filter.matching (store.documents collection) filter).map (view projection) := by
  have hfind (hevaluates : Filter.Evaluates (store.documents collection) filter) :
      store.find collection filter { projection } =
        .ok ((Filter.matching (store.documents collection) filter).map (view projection)) :=
    find_eq_ok (find_matching hevaluates) { projection }
  constructor
  · intro h
    have hevaluates := evaluates_of_findIn (mapError_eq_ok_iff.1 h)
    rw [hfind hevaluates] at h
    exact ⟨hevaluates, (Except.ok.inj h).symm⟩
  · rintro ⟨hevaluates, rfl⟩
    exact hfind hevaluates

/-- A count finds as many documents as there is room for. -/
theorem count_eq_ok {store : Store} {collection : String} {filter : Json} {matched : List Json}
    (h : store.find collection filter = .ok matched) (limit : Option Nat) :
    store.count collection filter limit = .ok (inRoom limit matched).length := by
  obtain ⟨hevaluates, rfl⟩ := find_eq_ok_iff.1 h
  rw [count, inCollection, countIn_matching hevaluates, show view none = id from rfl, List.map_id]
  rfl

end Store

open Access

theorem Access.answer_find {session : Session} (collection : String) (filter : Json)
    (options : FindOptions) :
    (Access.find collection filter options).answer session =
      if session.refused.contains .find then .error (.store collection (.refused .find))
      else session.store.find collection filter options := by
  rw [answer, Access.find, runIn_call]
  by_cases hrefused : session.refused.contains .find <;>
    simp only [StoreRequest.method, hrefused] <;> rfl

theorem Access.answer_count {session : Session} (collection : String) (filter : Json)
    (limit : Option Nat) :
    (Access.count collection filter limit).answer session =
      if session.refused.contains .count then .error (.store collection (.refused .count))
      else session.store.count collection filter limit := by
  rw [answer, Access.count, runIn_call]
  by_cases hrefused : session.refused.contains .count <;>
    simp only [StoreRequest.method, hrefused] <;> rfl

namespace Collection

/-- A query that finds some documents without options finds a slice of them with options. -/
theorem answer_find_eq_ok {session : Session} {collection : Collection} {filter : Json}
    {matched : List Json} (h : (collection.find filter).answer session = .ok matched)
    (options : FindOptions) :
    (collection.find filter options).answer session =
      .ok ((Store.inRoom options.limit (matched.drop options.skip)).map
        (Store.view options.projection)) := by
  rw [find, (reads_normalize _ _).answer_bind fun _ => .find _ _ _] at h ⊢
  obtain ⟨normalized, hnormalized, hfind⟩ := bind_eq_ok_iff.1 h
  rw [answer_find] at hfind
  rw [hnormalized, ok_bind, answer_find]
  split at hfind
  case isTrue => cases hfind
  case isFalse hrefused => rw [if_neg hrefused, Store.find_eq_ok hfind]

theorem answer_find_eq_ok_iff {session : Session} {collection : Collection} {filter : Json}
    {projection : Option (List String)} {found : List Json} :
    (collection.find filter { projection }).answer session = .ok found ↔
      session.refused.contains .find = false ∧ ∃ normalized,
        (collection.normalize filter).answer session = .ok normalized ∧
        Filter.Evaluates (session.store.documents collection.name) normalized ∧
        found = (Filter.matching (session.store.documents collection.name) normalized).map
          (Store.view projection) := by
  rw [find, (reads_normalize _ _).answer_bind_eq_ok_iff fun _ => .find _ _ _]
  simp only [answer_find, ← Store.find_eq_ok_iff]
  cases session.refused.contains StoreMethod.find <;> simp

theorem answer_find_of_find {session : Session} {collection : Collection} {filter normalized : Json}
    {options : FindOptions} {found : List Json}
    (hnormalized : (collection.normalize filter).answer session = .ok normalized)
    (hrefused : session.refused.contains .find = false)
    (hfind : session.store.find collection.name normalized options = .ok found) :
    (collection.find filter options).answer session = .ok found := by
  rw [find, (reads_normalize _ _).answer_bind fun _ => .find _ _ _, hnormalized, ok_bind,
    answer_find, hrefused, if_neg Bool.false_ne_true, hfind]

end Collection

namespace LazyDocuments

section Sets

variable {session : Session} {documents : LazyDocuments} {matched : List Json}

/-- A set is fetched as a projection of all documents that match its query. -/
theorem answer_fetch_of_find
    (h : (documents.collection.find documents.query).answer session = .ok matched) :
    documents.fetch.answer session = .ok (matched.map (Store.view documents.projection)) :=
  Collection.answer_find_eq_ok h { projection := documents.projection }

/-- The document at a position of a set is the one at that position of the whole set. -/
theorem answer_fetchOne_of_find
    (h : (documents.collection.find documents.query).answer session = .ok matched)
    (position : Nat) :
    (documents.fetchOne position).answer session =
      .ok ((matched.map (Store.view documents.projection))[position]?.getD .null) := by
  rw [fetchOne, (Collection.reads_find _ _ _).answer_bind fun _ => .pure _,
    Collection.answer_find_eq_ok h, ok_bind, answer_pure]
  simp [Store.inRoom, List.head?_take]

end Sets

/-- A set of documents of one query is fetched as a projection of the matching documents. -/
theorem answer_fetch {session : Session} {collection : Collection} {filter : Json}
    {matched : List Json} (h : (collection.find filter).answer session = .ok matched)
    (projection : Option (List String)) :
    ({ collection.lazy filter with projection } : LazyDocuments).fetch.answer session =
      .ok (matched.map (Store.view projection)) :=
  answer_fetch_of_find h

/-- The document at a position of such a set is the one at that position of the whole set. -/
theorem answer_fetchOne {session : Session} {collection : Collection} {filter : Json}
    {matched : List Json} (h : (collection.find filter).answer session = .ok matched)
    (projection : Option (List String)) (position : Nat) :
    (({ collection.lazy filter with projection } : LazyDocuments).fetchOne position).answer session =
      .ok ((matched.map (Store.view projection))[position]?.getD .null) :=
  @answer_fetchOne_of_find _ session { collection.lazy filter with projection } matched h position

end LazyDocuments

/-- What a query finds without options says what it finds with them: the documents from the first
one that is not skipped up to the limit, in order and each of them as projected. So it does of a
count up to a limit, and of the documents that are fetched by position from a set. -/
theorem Collection.slices_of_find {session : Session} {collection : Collection} {filter : Json}
    {matched : List Json} (hfind : session.store.find collection.name filter = .ok matched) :
    (∀ options : FindOptions, session.store.find collection.name filter options =
      .ok ((Store.inRoom options.limit (matched.drop options.skip)).map
        (Store.view options.projection))) ∧
    (∀ limit : Option Nat, session.store.count collection.name filter limit =
      .ok (limit.elim matched.length fun limit => min limit matched.length)) ∧
    ∀ documents : LazyDocuments, documents.collection = collection →
      (collection.normalize documents.query).answer session = .ok filter →
      session.refused.contains .find = false →
      ∃ found, documents.fetch.answer session = .ok found ∧
        found = matched.map (Store.view documents.projection) ∧
        ∀ position, (documents.fetchOne position).answer session =
          .ok (found[position]?.getD .null) := by
  refine ⟨Store.find_eq_ok hfind, fun limit => ?_, ?_⟩
  · rw [Store.count_eq_ok hfind, Store.length_inRoom]
  · rintro documents rfl hnormalized hrefused
    have hquery := answer_find_of_find hnormalized hrefused hfind
    exact ⟨_, LazyDocuments.answer_fetch_of_find hquery, rfl,
      LazyDocuments.answer_fetchOne_of_find hquery⟩

end

def novel (id title : String) : Json :=
  .object [("_id", .string id), ("genre", .string "novel"), ("title", .string title)]

def novelSession : Session where
  store := { collections := .ofList [("books",
    [novel "a" "Emma", .object [("_id", .string "b"), ("title", .string "Atlas")],
      novel "c" "Ulysses"])] }

/-- The novels, of which only the titles are read. -/
def novelTitles : LazyDocuments where
  collection := ⟨⟨.empty⟩, "books"⟩
  queries := [.single "genre" (.string "novel")]
  projection := some ["title"]

/-- The second novel is found behind the first one, and there is no third one. -/
theorem Collection.slices_of_find_novels :
    novelSession.store.find "books" (.single "genre" (.string "novel")) =
      .ok [novel "a" "Emma", novel "c" "Ulysses"] ∧
    novelSession.store.find "books" (.single "genre" (.string "novel"))
      { skip := 1, limit := some 2 } = .ok [novel "c" "Ulysses"] ∧
    novelSession.store.count "books" (.single "genre" (.string "novel")) (some 1) = .ok 1 ∧
    (novelTitles.fetchOne 1).answer novelSession =
      .ok (.object [("_id", .string "c"), ("title", .string "Ulysses")]) ∧
    (novelTitles.fetchOne 2).answer novelSession = .ok .null := by
  have hfind : novelSession.store.find novelTitles.collection.name
      (.single "genre" (.string "novel")) = .ok [novel "a" "Emma", novel "c" "Ulysses"] := rfl
  obtain ⟨hoptions, hcount, hsets⟩ := slices_of_find hfind
  obtain ⟨found, -, rfl, hposition⟩ := hsets novelTitles rfl rfl rfl
  exact ⟨hfind, hoptions { skip := 1, limit := some 2 }, hcount (some 1), hposition 1, hposition 2⟩

end LinkedDocs
