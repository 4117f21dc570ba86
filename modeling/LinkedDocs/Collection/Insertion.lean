import LinkedDocs.Collection.Query

/-!
Inserting documents. A document may hold whole documents where a foreign key belongs: these are
inserted into the target collection first, and their keys take their place. Then the foreign keys
that are to be verified have to belong to stored documents. When something fails, the documents that
were inserted on the way are deleted again.
-/

namespace LinkedDocs

variable [Platform]

/-- A nested document that was inserted. -/
structure Dependency where
  collection : String
  key : Json
deriving Repr

structure InsertionState where
  session : Session
  /-- The nested documents inserted so far, the oldest one first. -/
  dependencies : List Dependency := []

/-- A computation that inserts nested documents; those of a computation that fails are known. -/
abbrev Insertion := ExceptT Error (StateM InsertionState)

namespace Insertion

def ofAccess {α : Type} (access : Access α) : Insertion α := ExceptT.mk do
  let state ← get
  let (result, session) := access.runIn state.session
  set { state with session }
  return result

def record (dependency : Dependency) : Insertion Unit :=
  modify fun state => { state with dependencies := state.dependencies ++ [dependency] }

end Insertion

/-- Deletes documents, the first one of the list first, without regard to references to them. -/
def deleteDependencies (graph : Graph) : List Dependency → Access Unit
  | [] => return
  | dependency :: rest => do
    let collection := graph.collection dependency.collection
    let _ ← Access.deleteMany collection.name (collection.keyQuery dependency.key)
    deleteDependencies graph rest

/-- Deletes the inserted documents, the newest one first. -/
def rollBack (graph : Graph) (dependencies : List Dependency) : Access Unit :=
  deleteDependencies graph dependencies.reverse

namespace Collection

/-- Checks that the values of some foreign keys of a document belong to stored documents. -/
def verifyForeignKeys (collection : Collection) (document : Json) :
    List (String × ForeignKey) → Access Unit
  | [] => return
  | (key, foreignKey) :: rest => do
    if foreignKey.onInsert = .verify then
      let values := Json.distinct (document.valuesAt foreignKey.path)
      if !values.isEmpty then
        let target := collection.target foreignKey
        if !(← target.hasAllKeys values) then
          throw (.violation collection.name key (.unmatched values target.name))
    verifyForeignKeys collection document rest

/-- Checks every foreign key of a document that is to be verified. -/
def verify (collection : Collection) (document : Json) : Access Unit :=
  verifyForeignKeys collection document collection.foreignKeys.entries

mutual

/-- Inserts the documents nested in a value at a place of a document, and puts their keys in. -/
def insertNested (collection : Collection) (stack : Stack) (value : Json) : Insertion Json :=
  match value with
  | .object fields =>
    match collection.foreignKeyAt? stack with
    | none => return .object (← insertNestedFields collection stack fields)
    | some foreignKey => do
      let target := collection.target foreignKey
      let document := .object (← insertNestedFields target [] fields)
      Insertion.ofAccess (target.verify document)
      let stored ← Insertion.ofAccess (Access.insertOne target.name document)
      match target.keyOf? stored with
      | none =>
        throw (.violation collection.name (canonicalKey stack)
          (.nestedWithoutKey target.key target.name))
      | some key =>
        Insertion.record ⟨target.name, key⟩
        return key
  | .array items => return .array (← insertNestedItems collection stack 0 items)
  | .null => return .null
  | .bool value => return .bool value
  | .number value => return .number value
  | .string value => return .string value
termination_by structural value

def insertNestedItems (collection : Collection) (stack : Stack) (position : Nat)
    (items : List Json) : Insertion (List Json) :=
  match items with
  | [] => return []
  | item :: rest => do
    let replaced ← insertNested collection (stack ++ [.index position]) item
    let others ← insertNestedItems collection stack (position + 1) rest
    return replaced :: others
termination_by structural items

def insertNestedFields (collection : Collection) (stack : Stack)
    (fields : List (String × Json)) : Insertion (List (String × Json)) :=
  match fields with
  | [] => return []
  | (name, value) :: rest => do
    let replaced ← insertNested collection (stack ++ [.key name]) value
    let others ← insertNestedFields collection stack rest
    return (name, replaced) :: others
termination_by structural fields

end

/-- The document with keys in place of its nested documents, after these were inserted. No foreign
key stands at the root of a document. -/
def prepare (collection : Collection) (document : Json) : Insertion Json := do
  let prepared ←
    match document with
    | .object fields => do pure (.object (← insertNestedFields collection [] fields))
    | other => insertNested collection [] other
  Insertion.ofAccess (collection.verify prepared)
  return prepared

def prepareAll (collection : Collection) : List Json → Insertion (List Json)
  | [] => return []
  | document :: rest => do
    let prepared ← collection.prepare document
    let others ← prepareAll collection rest
    return prepared :: others

/-- Runs an insertion. When it fails, the nested documents are deleted; whether that fails, too,
does not matter. The second result is the nested documents of an insertion that succeeded. -/
def settle {α : Type} (graph : Graph) (insertion : Insertion α) :
    Access (α × List Dependency) := ExceptT.mk do
  let (result, state) := insertion.run.run { session := ← get }
  set state.session
  match result with
  | .ok value => return .ok (value, state.dependencies)
  | .error error =>
    let _ ← (rollBack graph state.dependencies).run
    return .error error

/-- Inserts documents, all or none of them, and returns them as stored. -/
def insertMany (collection : Collection) (documents : List Json) : Access (List Json) := do
  let (stored, _) ← settle collection.graph do
    let prepared ← collection.prepareAll documents
    Insertion.ofAccess (Access.insertMany collection.name prepared)
  return stored

def insert (collection : Collection) (document : Json) : Access Json := do
  return (← collection.insertMany [document]).getLast?.getD .null

/-- Replaces the first document that matches a normalized filter query. When there is none, the
nested documents are deleted again. -/
def replace (collection : Collection) (filter document : Json) :
    Access (Option Replacement) := do
  let (replacement, dependencies) ← settle collection.graph do
    let prepared ← collection.prepare document
    Insertion.ofAccess (Access.replaceOne collection.name filter prepared)
  if replacement.isNone then rollBack collection.graph dependencies
  return replacement

def replaceOne (collection : Collection) (filter document : Json) : Access UpdateCount := do
  let filter ← collection.normalize filter
  match ← collection.replace filter document with
  | none => return {}
  | some replacement =>
    let same := replacement.previous.identical replacement.current
    return ⟨1, if same then 0 else 1⟩

def findOneAndReplace (collection : Collection) (filter document : Json) :
    Access (Option Json) := do
  let filter ← collection.normalize filter
  return (← collection.replace filter document).map Replacement.previous

def findByKeyAndReplace (collection : Collection) (key document : Json) :
    Access (Option Json) := do
  return (← collection.replace (collection.keyQuery key) document).map Replacement.previous

end Collection

end LinkedDocs
