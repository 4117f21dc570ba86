import LinkedDocs.Store.Basic

namespace LinkedDocs

variable [Platform]

inductive StoreRequest where
  | find (filter : Json) (options : FindOptions)
  | count (filter : Json) (limit : Option Nat)
  | insertOne (document : Json)
  | insertMany (documents : List Json)
  | update (filter update : Json) (options : UpdateOptions)
  | replaceOne (filter document : Json)
  | deleteMany (filter : Json)
  | dropCollection
  | collectionNames
deriving Repr

def StoreRequest.method : StoreRequest → StoreMethod
  | .find _ _ => .find
  | .count _ _ => .count
  | .insertOne _ => .insertOne
  | .insertMany _ => .insertMany
  | .update _ _ _ => .update
  | .replaceOne _ _ => .replaceOne
  | .deleteMany _ => .deleteMany
  | .dropCollection => .dropCollection
  | .collectionNames => .collectionNames

structure StoreCall where
  collection : String
  request : StoreRequest
deriving Repr

structure Session where
  store : Store := {}
  /-- The calls so far, the latest one first. -/
  calls : List StoreCall := []
  refused : List StoreMethod := []
deriving Repr

/-- A computation that reads and writes a store and may fail; what it wrote before it failed stays
written. -/
abbrev Access := ExceptT Error (StateM Session)

namespace Access

def runIn {α : Type} (access : Access α) (session : Session) : Except Error α × Session :=
  access.run.run session

/-- Records a call and carries it out, unless its method is refused. -/
def call {α : Type} (collection : String) (request : StoreRequest)
    (perform : Store → Except Error α × Store) : Access α := do
  modify fun session => { session with calls := ⟨collection, request⟩ :: session.calls }
  let session ← get
  if session.refused.contains request.method then
    throw (.store collection (.refused request.method))
  let (result, store) := perform session.store
  modify fun session => { session with store }
  liftExcept result
where
  liftExcept (result : Except Error α) : Access α :=
    match result with
    | .ok value => return value
    | .error error => throw error

def find (collection : String) (filter : Json) (options : FindOptions := {}) :
    Access (List Json) :=
  call collection (.find filter options) fun store =>
    (store.find collection filter options, store)

def findOne (collection : String) (filter : Json) : Access (Option Json) := do
  return (← find collection filter { limit := some 1 }).head?

def count (collection : String) (filter : Json) (limit : Option Nat) : Access Nat :=
  call collection (.count filter limit) fun store => (store.count collection filter limit, store)

def insertOne (collection : String) (document : Json) : Access Json :=
  call collection (.insertOne document) fun store => store.insertOne collection document

def insertMany (collection : String) (documents : List Json) : Access (List Json) :=
  call collection (.insertMany documents) fun store => store.insertMany collection documents

def update (collection : String) (filter update : Json) (options : UpdateOptions) :
    Access UpdateCount :=
  call collection (.update filter update options) fun store =>
    store.update collection filter update options

def replaceOne (collection : String) (filter document : Json) : Access (Option Replacement) :=
  call collection (.replaceOne filter document) fun store =>
    store.replaceOne collection filter document

def deleteMany (collection : String) (filter : Json) : Access Nat :=
  call collection (.deleteMany filter) fun store => store.deleteMany collection filter

def dropCollection (collection : String) : Access Bool :=
  call collection .dropCollection fun store =>
    let (dropped, store) := store.dropCollection collection
    (.ok dropped, store)

def collectionNames : Access (List String) :=
  call "" .collectionNames fun store => (.ok store.collectionNames, store)

end Access

end LinkedDocs
