import LinkedDocs.Collection.Query

/-!
Deleting documents. A delete is planned first: the walk over the references to the deleted documents
only reads, and schedules what the delete policies ask for. A rejected delete leaves no plan.
Running a plan carries out its operations in order and the delete itself last.
-/

namespace LinkedDocs

variable [Platform]

structure DeleteOptions where
  /-- Whether the delete policies of foreign keys are followed. -/
  propagate : Bool := true
  /-- Whether only the first matching document is deleted. -/
  single : Bool := false
deriving DecidableEq, Repr

/-- A write to the store. -/
inductive Operation where
  | update (collection : String) (filter changes : Json) (arrayFilters : List Json)
  | delete (collection : String) (filter : Json)
deriving Repr

/-- The keys of the documents that are to be deleted, by collection. -/
structure DeletedKeys where
  collections : NameMap (List Json) := .empty
deriving Repr

namespace DeletedKeys

def get (deleted : DeletedKeys) (collection : String) : List Json :=
  deleted.collections.getD collection []

/-- The keys that are neither in a list nor earlier among themselves. -/
def freshKeys (seen : List Json) : List Json → List Json
  | [] => []
  | key :: rest =>
    if Json.holds seen key then freshKeys seen rest else key :: freshKeys (seen ++ [key]) rest

/-- Marks keys as deleted and returns those that were not marked before. -/
def mark (deleted : DeletedKeys) (collection : String) (keys : List Json) :
    List Json × DeletedKeys :=
  let seen := deleted.get collection
  let fresh := freshKeys seen keys
  (fresh, { collections := deleted.collections.insert collection (seen ++ fresh) })

end DeletedKeys

structure RemovalPlan where
  /-- The writes to the referring documents, in order. -/
  operations : List Operation
  delete : Operation
  deletedKeys : DeletedKeys
deriving Repr

/-- A plan while its walk goes on. -/
structure RemovalDraft where
  operations : List Operation := []
  deletedKeys : DeletedKeys := {}
deriving Repr

abbrev Planning := StateT RemovalDraft Access

namespace Planning

def schedule (operation : Operation) : Planning Unit :=
  modify fun draft => { draft with operations := draft.operations ++ [operation] }

def mark (collection : String) (keys : List Json) : Planning (List Json) :=
  modifyGet fun draft =>
    let (fresh, deletedKeys) := draft.deletedKeys.mark collection keys
    (fresh, { draft with deletedKeys })

end Planning

/-- The update that detaches the documents found by a filter query from deleted keys. -/
def ForeignKey.detach (foreignKey : ForeignKey) (referencing name : String) (filter : Json)
    (keys : List Json) : Except Error Operation :=
  match foreignKey.updater with
  | none => .error (.incoherentPolicy referencing name foreignKey.onDelete .noTarget)
  | some updater =>
    let condition :=
      match updater.filter with
      | some path => .single path (.oneOf keys)
      | none => .oneOf keys
    let arrayFilters := if updater.filter.isSome then [condition] else []
    let update (operator : UpdateOperator) (argument : Json) : Json :=
      .single operator.name (.single updater.target argument)
    match foreignKey.onDelete with
    | .pull => .ok (.update referencing filter (update .pull condition) [])
    | .unset => .ok (.update referencing filter (update .unset (.int 1)) arrayFilters)
    | _ => .ok (.update referencing filter (update .set .null) arrayFilters)

namespace Collection

/-- Schedules what deleting keys of a collection asks for at one foreign key that refers to it. A
cascade plans the delete of the referring documents. -/
def planReference (collection source : Collection) (name : String) (foreignKey : ForeignKey)
    (keys : List Json) (cascade : Json → Planning Operation) : Planning Unit := do
  if foreignKey.onDelete = .bypass then return
  let filter := Json.single name (.oneOf keys)
  if (← Access.count source.name filter (some 1)) = 0 then return
  match foreignKey.onDelete with
  | .bypass => return
  | .reject => throw (.deleteRejected collection.name source.name name)
  | .delete => Planning.schedule (← cascade filter)
  | _ =>
    match foreignKey.detach source.name name filter keys with
    | .ok operation => Planning.schedule operation
    | .error error => throw error

/-- Plans the delete of the documents that match a normalized filter query, and returns the delete
itself. Each level of the walk marks a new key, so fuel for more levels than there are documents is
enough. -/
def planFrom (options : DeleteOptions) (fuel : Nat) (collection : Collection) (filter : Json)
    (single : Bool) : Planning Operation := do
  let found ← collection.storedKeys filter (if single then some 1 else none)
  let keys ← Planning.mark collection.name found
  if options.propagate && !keys.isEmpty then
    match fuel with
    | 0 => pure ()
    | fuel + 1 =>
      collection.references.entries.forM fun (referencing, foreignKeys) => do
        let source := collection.graph.collection referencing
        foreignKeys.entries.forM fun (name, foreignKey) =>
          planReference collection source name foreignKey keys fun query =>
            planFrom options fuel source query false
  return .delete collection.name (collection.keysQuery keys)
termination_by structural fuel

def storedCount : Access Nat := do
  return (← get).store.collections.values.flatten.length

/-- Plans the delete of the documents that match a normalized filter query. -/
def planNormalized (collection : Collection) (filter : Json) (options : DeleteOptions) :
    Access RemovalPlan := do
  let fuel := (← storedCount) + 1
  let (delete, draft) ← (planFrom options fuel collection filter options.single).run {}
  return { operations := draft.operations, delete, deletedKeys := draft.deletedKeys }

def planDelete (collection : Collection) (filter : Json) (options : DeleteOptions) :
    Access RemovalPlan := do
  let filter ← collection.normalize filter
  collection.planNormalized filter options

end Collection

/-- Carries out an operation and returns the number of documents that changed. -/
def Operation.execute : Operation → Access Nat
  | .update collection filter changes arrayFilters => do
    return (← Access.update collection filter changes { multi := true, arrayFilters }).modified
  | .delete collection filter => Access.deleteMany collection filter

/-- Carries out a plan and returns the number of documents that its last delete removed. -/
def RemovalPlan.execute (plan : RemovalPlan) : Access Nat := do
  plan.operations.forM fun operation => do
    let _ ← operation.execute
  plan.delete.execute

namespace Collection

def delete (collection : Collection) (filter : Json) (options : DeleteOptions := {}) :
    Access Nat := do
  (← collection.planDelete filter options).execute

def deleteOne (collection : Collection) (filter : Json) : Access Nat :=
  collection.delete filter { single := true }

def deleteByKey (collection : Collection) (key : Json) : Access Nat :=
  collection.delete (collection.keyQuery key)

/-- Deletes the first document that matches a normalized filter query, and returns it. -/
def takeOne (collection : Collection) (filter : Json) : Access (Option Json) := do
  let plan ← collection.planNormalized filter { single := true }
  match (plan.deletedKeys.get collection.name).head? with
  | none => return none
  | some key =>
    let document ← collection.findByKey key
    let _ ← plan.execute
    return document

def findOneAndDelete (collection : Collection) (filter : Json) : Access (Option Json) := do
  let filter ← collection.normalize filter
  collection.takeOne filter

def findByKeyAndDelete (collection : Collection) (key : Json) : Access (Option Json) :=
  collection.takeOne (collection.keyQuery key)

/-- Deletes all documents, and then the collection. -/
def drop (collection : Collection) : Access Nat := do
  let deleted ← collection.delete (.object [])
  let _ ← Access.dropCollection collection.name
  return deleted

end Collection

namespace Operation

def toJson : Operation → Json
  | .update collection filter changes arrayFilters =>
    .object [("operation", .string "update"), ("collection", .string collection),
      ("filter", filter), ("update", changes), ("arrayFilters", .array arrayFilters)]
  | .delete collection filter =>
    .object [("operation", .string "delete"), ("collection", .string collection),
      ("filter", filter)]

end Operation

def DeletedKeys.toJson (deleted : DeletedKeys) : Json :=
  deleted.collections.toJson .array

def RemovalPlan.toJson (plan : RemovalPlan) : Json :=
  .object [("operations", .array (plan.operations.map Operation.toJson)),
    ("delete", plan.delete.toJson), ("deletedKeys", plan.deletedKeys.toJson)]

end LinkedDocs
