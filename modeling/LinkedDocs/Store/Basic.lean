import LinkedDocs.Error
import LinkedDocs.Json.Reader
import LinkedDocs.Projection
import LinkedDocs.Update

/-!
The document store: collections of documents in the order of their insertion. An operation returns
the store after it together with its result, because a write that fails may still have changed the
store: an insert creates the collection before it looks at the documents, and an update of many
documents keeps those it has updated.
-/

namespace LinkedDocs

variable [Platform]

structure Store where
  collections : NameMap (List Json) := .empty
  /-- The number of ids that were generated. -/
  issued : Nat := 0
deriving Repr

structure FindOptions where
  skip : Nat := 0
  limit : Option Nat := none
  /-- The paths to which the documents found are reduced. -/
  projection : Option (List String) := none
deriving DecidableEq, Repr

structure UpdateOptions where
  /-- Whether every matching document is updated or the first one only. -/
  multi : Bool := false
  arrayFilters : List Json := []
deriving Repr

structure UpdateCount where
  matched : Nat := 0
  modified : Nat := 0
deriving DecidableEq, Repr

def UpdateCount.add (count other : UpdateCount) : UpdateCount :=
  ⟨count.matched + other.matched, count.modified + other.modified⟩

structure Replacement where
  previous : Json
  current : Json
deriving Repr

namespace Store

/-- The id of a document; a missing one reads as null. -/
def idOf (document : Json) : Json :=
  document.fieldOrNull idField

def documents (store : Store) (collection : String) : List Json :=
  store.collections.getD collection []

def withDocuments (store : Store) (collection : String) (documents : List Json) : Store :=
  { store with collections := store.collections.insert collection documents }

def dump (store : Store) : Json :=
  store.collections.toJson .array

def view (projection : Option (List String)) (document : Json) : Json :=
  match projection with
  | some paths => Projection.project paths document
  | none => document

/-- The matching documents after the skipped ones, as many as there is room for. What comes after
the last of them is not looked at. -/
def findIn (filter : Json) (projection : Option (List String)) (skip : Nat) (room : Option Nat) :
    List Json → Except QueryFault (List Json)
  | [] => .ok []
  | document :: rest =>
    if room = some 0 then .ok []
    else do
      if ← Filter.accepts document filter then
        match skip with
        | skip + 1 => findIn filter projection skip room rest
        | 0 =>
          let others ← findIn filter projection 0 (room.map (· - 1)) rest
          return view projection document :: others
      else
        findIn filter projection skip room rest

def countIn (filter : Json) (room : Option Nat) : List Json → Except QueryFault Nat
  | [] => .ok 0
  | document :: rest =>
    if room = some 0 then .ok 0
    else do
      if ← Filter.accepts document filter then
        return (← countIn filter (room.map (· - 1)) rest) + 1
      else
        countIn filter room rest

def inCollection {α : Type} (collection : String) (result : Except QueryFault α) :
    Except Error α :=
  result.mapError fun fault => .invalidQuery collection (.query fault)

def find (store : Store) (collection : String) (filter : Json) (options : FindOptions := {}) :
    Except Error (List Json) :=
  inCollection collection
    (findIn filter options.projection options.skip options.limit (store.documents collection))

/-- The number of matching documents, counted up to a limit. -/
def count (store : Store) (collection : String) (filter : Json) (limit : Option Nat) :
    Except Error Nat :=
  inCollection collection (countIn filter limit (store.documents collection))

/-- The document as it is stored: one without an id gets a new one as its first field. The second
result is the number of ids generated after that. -/
def prepare (collection : String) (issued : Nat) (existing : List Json) (document : Json) :
    Except Error (Json × Nat) :=
  match document with
  | .object fields =>
    let (document, issued) :=
      if (lookupName idField fields).isSome then (document, issued)
      else (.object ((idField, .string (Platform.newId issued)) :: fields), issued + 1)
    if existing.any fun other => (idOf other).sameValue (idOf document) then
      .error (.store collection (.duplicateId (idOf document)))
    else
      .ok (document, issued)
  | _ => .error (.store collection .notAnObject)

/-- Prepares documents one after the other; each one counts as existing for those after it. -/
def prepareAll (collection : String) (issued : Nat) (existing : List Json) :
    List Json → Except Error (List Json × Nat)
  | [] => .ok ([], issued)
  | document :: rest => do
    let (document, issued) ← prepare collection issued existing document
    let (others, issued) ← prepareAll collection issued (existing ++ [document]) rest
    return (document :: others, issued)

/-- Inserts documents, all or none of them, and returns them as stored. -/
def insertMany (store : Store) (collection : String) (documents : List Json) :
    Except Error (List Json) × Store :=
  let existing := store.documents collection
  match prepareAll collection store.issued existing documents with
  | .ok (prepared, issued) =>
    (.ok prepared, { store.withDocuments collection (existing ++ prepared) with issued })
  | .error error => (.error error, store.withDocuments collection existing)

def insertOne (store : Store) (collection : String) (document : Json) :
    Except Error Json × Store :=
  let existing := store.documents collection
  match prepare collection store.issued existing document with
  | .ok (document, issued) =>
    (.ok document, { store.withDocuments collection (existing ++ [document]) with issued })
  | .error error => (.error error, store.withDocuments collection existing)

def ofFixture (fixture : Json) : Except Error Store :=
  match fixture with
  | .object collections => load {} collections
  | _ => .error (.json .fixtureShape)
where
  load (store : Store) : List (String × Json) → Except Error Store
    | [] => .ok store
    | (name, .array documents) :: rest => do
      let (prepared, issued) ← prepareAll name store.issued [] documents
      load { store.withDocuments name prepared with issued } rest
    | (name, _) :: _ => .error (.store name .collectionNotAnArray)

def ofFixtureText (text : String) : Except Error Store :=
  match Json.read? text with
  | some fixture => ofFixture fixture
  | none => .error (.json .malformed)

/-- A matching document after an update, and whether it was modified; `none` for others. -/
def updateDocument? (filter update : Json) (arrayFilters : List Json) (document : Json) :
    Except InvalidQueryFault (Option (Json × Bool)) := do
  if ← (Filter.accepts document filter).mapError .query then
    let (updated, modified) ← (Update.apply update arrayFilters document).mapError .query
    if !modified then return some (document, false)
    else if (idOf updated).sameValue (idOf document) then return some (updated, true)
    else throw .idImmutable
  else
    return none

/-- Updates the matching documents in order, or the first one only. A document whose update fails
stays as it is, and so do those after it. -/
def updateIn (filter update : Json) (options : UpdateOptions) :
    List Json → Except InvalidQueryFault UpdateCount × List Json
  | [] => (.ok {}, [])
  | document :: rest =>
    match updateDocument? filter update options.arrayFilters document with
    | .error fault => (.error fault, document :: rest)
    | .ok none =>
      let (result, rest) := updateIn filter update options rest
      (result, document :: rest)
    | .ok (some (updated, modified)) =>
      let count : UpdateCount := ⟨1, if modified then 1 else 0⟩
      if options.multi then
        let (result, rest) := updateIn filter update options rest
        (result.map count.add, updated :: rest)
      else
        (.ok count, updated :: rest)

def update (store : Store) (collection : String) (filter update : Json)
    (options : UpdateOptions) : Except Error UpdateCount × Store :=
  match store.collections.get? collection with
  | none => (.ok {}, store)
  | some documents =>
    let (result, documents) := updateIn filter update options documents
    (result.mapError (.invalidQuery collection), store.withDocuments collection documents)

/-- The fields of a document with the id of the one that it replaces. -/
def keepId (id : Json) (fields : List (String × Json)) : Except InvalidQueryFault Json :=
  match lookupName idField fields with
  | some given => if given.sameValue id then .ok (.object fields) else .error .idImmutable
  | none => .ok (.object ((idField, id) :: fields))

/-- Replaces the first matching document. -/
def replaceIn (filter : Json) (fields : List (String × Json)) :
    List Json → Except InvalidQueryFault (Option Replacement × List Json)
  | [] => .ok (none, [])
  | document :: rest => do
    if ← (Filter.accepts document filter).mapError .query then
      let current ← keepId (idOf document) fields
      return (some ⟨document, current⟩, current :: rest)
    else
      let (replacement, rest) ← replaceIn filter fields rest
      return (replacement, document :: rest)

/-- Replaces the first matching document by one that keeps its id. -/
def replaceOne (store : Store) (collection : String) (filter document : Json) :
    Except Error (Option Replacement) × Store :=
  match store.collections.get? collection with
  | none => (.ok none, store)
  | some documents =>
    match document with
    | .object fields =>
      match replaceIn filter fields documents with
      | .ok (replacement, documents) => (.ok replacement, store.withDocuments collection documents)
      | .error fault => (.error (.invalidQuery collection fault), store)
    | _ => (.error (.store collection .notAnObject), store)

def unmatched (filter : Json) : List Json → Except QueryFault (List Json)
  | [] => .ok []
  | document :: rest => do
    let hit ← Filter.accepts document filter
    let kept ← unmatched filter rest
    return if hit then kept else document :: kept

def deleteMany (store : Store) (collection : String) (filter : Json) :
    Except Error Nat × Store :=
  match store.collections.get? collection with
  | none => (.ok 0, store)
  | some documents =>
    match unmatched filter documents with
    | .ok kept => (.ok (documents.length - kept.length), store.withDocuments collection kept)
    | .error fault => (.error (.invalidQuery collection (.query fault)), store)

def dropCollection (store : Store) (collection : String) : Bool × Store :=
  (store.collections.contains collection,
    { store with collections := store.collections.erase collection })

def collectionNames (store : Store) : List String :=
  store.collections.keys

end Store

end LinkedDocs
