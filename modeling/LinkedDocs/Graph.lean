import LinkedDocs.Error
import LinkedDocs.Graph.Updater

/-!
The graph of a schema: for each collection its foreign keys, under their canonical keys, and the
foreign keys of all collections that refer to it. Only a schema whose names are well spelled and
whose delete policies can be carried out has one.
-/

namespace LinkedDocs

structure ForeignKey where
  path : List String
  collection : String
  onInsert : InsertPolicy
  onDelete : DeletePolicy
  /-- Where a delete policy writes that updates the referring documents. -/
  updater : Option Updater
deriving DecidableEq, Repr

/-- Foreign keys under their canonical keys. -/
abbrev ForeignKeys := NameMap ForeignKey

/-- The foreign keys that refer to a collection, by the collection that holds them. -/
abbrev References := NameMap ForeignKeys

structure CollectionLinks where
  key : String := "_id"
  foreignKeys : ForeignKeys := .empty
  references : References := .empty
deriving DecidableEq, Repr

structure Graph where
  collections : NameMap CollectionLinks := .empty
deriving DecidableEq, Repr

namespace ForeignKey

/-- Whether the path ends with a wildcard, so that it holds several keys. -/
def isArray (foreignKey : ForeignKey) : Bool :=
  foreignKey.path.getLast? == some wildcard

/-- The update target that a delete policy needs. -/
def updaterFor (policy : DeletePolicy) (path : List String) : Option Updater :=
  match policy with
  | .unset => some (.forSet path)
  | .nullify => some (.forSet path)
  | .pull => Updater.forPull? path
  | .bypass => none
  | .reject => none
  | .delete => none

/-- A declared foreign key of a collection. Keys are verified on insert and left alone on delete
unless the declaration says otherwise. -/
def ofDeclaration (owner path : String) (declaration : ForeignKeyDeclaration) : ForeignKey :=
  let onDelete := declaration.onDelete.getD .bypass
  { path := splitPath path
    collection := declaration.collection.getD owner
    onInsert := declaration.onInsert.getD .verify
    onDelete := onDelete
    updater := updaterFor onDelete (splitPath path) }

end ForeignKey

namespace CollectionDeclaration

def compile (declaration : CollectionDeclaration) (owner : String) : ForeignKeys :=
  .ofList (declaration.foreignKeys.entries.map fun (path, foreignKey) =>
    (pathKey (splitPath path), .ofDeclaration owner path foreignKey))

end CollectionDeclaration

namespace Schema

def checkPolicy (collection foreignKey : String) (path : List String) (policy : DeletePolicy) :
    Except Error Unit :=
  let refuse (fault : PolicyFault) : Except Error Unit :=
    .error (.incoherentPolicy collection foreignKey policy fault)
  let endsWithWildcard := path.getLast? == some wildcard
  match policy with
  | .pull => if path.contains wildcard then .ok () else refuse .nothingToPull
  | .unset => if endsWithWildcard then refuse .endsWithWildcard else .ok ()
  | .nullify => if endsWithWildcard then refuse .endsWithWildcard else .ok ()
  | .bypass => .ok ()
  | .reject => .ok ()
  | .delete => .ok ()

def checkName (collection : String) (role : NameRole) (checked : Except SpellingError Unit) :
    Except Error Unit :=
  checked.mapError (.invalidName collection role)

/-- Checks the foreign keys of a collection after those in `earlier`, a list of canonical keys and
their paths. -/
def checkForeignKeys (collection : String) (earlier : List (String × String)) :
    List (String × ForeignKeyDeclaration) → Except Error Unit
  | [] => .ok ()
  | (path, declaration) :: rest => do
    checkName collection .foreignKeyPath (Identifier.checkForeignKeyPath path)
    if let some target := declaration.collection then
      checkName collection .foreignCollection (Identifier.check target)
    let foreignKey := pathKey (splitPath path)
    if let some previous := lookupName foreignKey earlier then
      throw (.sameKey collection previous path foreignKey)
    checkPolicy collection foreignKey (splitPath path) (declaration.onDelete.getD .bypass)
    checkForeignKeys collection ((foreignKey, path) :: earlier) rest

def checkCollection (name : String) (declaration : CollectionDeclaration) : Except Error Unit := do
  checkName name .collection (Identifier.check name)
  if let some key := declaration.key then
    checkName name .primaryKey (Identifier.checkKeyPath key)
  checkForeignKeys name [] declaration.foreignKeys.entries

/-- Whether a schema has a graph; the first fault in order otherwise. -/
def check (schema : Schema) : Except Error Unit :=
  schema.collections.entries.forM fun (name, declaration) => checkCollection name declaration

def foreignKeysOf (schema : Schema) (name : String) : ForeignKeys :=
  match schema.get? name with
  | some declaration => declaration.compile name
  | none => .empty

/-- The foreign keys of all collections that refer to one. -/
def referencesTo (schema : Schema) (target : String) : References :=
  (schema.collections.mapValues fun name declaration =>
    (declaration.compile name).filter fun _ foreignKey => foreignKey.collection == target).filter
      fun _ foreignKeys => !foreignKeys.isEmpty

def linksOf (schema : Schema) (name : String) : CollectionLinks :=
  { key := ((schema.get? name).bind CollectionDeclaration.key).getD "_id"
    foreignKeys := schema.foreignKeysOf name
    references := schema.referencesTo name }

/-- The collections to which a foreign key refers. -/
def targets (schema : Schema) : List String :=
  schema.collections.keys.flatMap fun name =>
    (schema.foreignKeysOf name).values.map ForeignKey.collection

/-- The graph of the declared collections and the targets, without a check of the schema. -/
def graph (schema : Schema) : Graph :=
  ⟨.ofList ((schema.collections.keys ++ schema.targets).map fun name =>
    (name, schema.linksOf name))⟩

end Schema

namespace Graph

def build (schema : Schema) : Except Error Graph := do
  schema.check
  return schema.graph

def get? (graph : Graph) (name : String) : Option CollectionLinks :=
  graph.collections.get? name

/-- The links of a collection; one outside the graph has the key `_id` and no links. -/
def links (graph : Graph) (name : String) : CollectionLinks :=
  (graph.get? name).getD {}

def contains (graph : Graph) (name : String) : Bool :=
  graph.collections.contains name

def size (graph : Graph) : Nat :=
  graph.collections.size

def isEmpty (graph : Graph) : Bool :=
  graph.collections.isEmpty

end Graph

namespace Updater

def toJson (updater : Updater) : Json :=
  .object [("target", .string updater.target),
    ("filter", (updater.filter.map Json.string).getD .null)]

end Updater

namespace ForeignKey

def toJson (foreignKey : ForeignKey) : Json :=
  .object [("path", .array (foreignKey.path.map .string)),
    ("collection", .string foreignKey.collection),
    ("onInsert", .string foreignKey.onInsert.name),
    ("onDelete", .string foreignKey.onDelete.name),
    ("updater", (foreignKey.updater.map Updater.toJson).getD .null)]

end ForeignKey

namespace CollectionLinks

def toJson (links : CollectionLinks) : Json :=
  .object [("key", .string links.key),
    ("foreignKeys", links.foreignKeys.toJson ForeignKey.toJson),
    ("references", links.references.toJson (NameMap.toJson ForeignKey.toJson))]

end CollectionLinks

def Graph.toJson (graph : Graph) : Json :=
  graph.collections.toJson CollectionLinks.toJson

end LinkedDocs
