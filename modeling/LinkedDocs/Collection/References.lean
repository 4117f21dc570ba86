import LinkedDocs.Collection.Query

namespace LinkedDocs

variable [Platform]

/-- Values by collection and by foreign key. -/
abbrev ValuesByForeignKey := NameMap (NameMap (List Json))

structure ReferenceOptions where
  /-- Whether keys are reported in place of documents. -/
  keysOnly : Bool := false
  /-- The collections that may refer to the keys; all if there is no list. -/
  collections : Option (List String) := none
  exclude : List String := []
deriving DecidableEq, Repr

def ReferenceOptions.includes (options : ReferenceOptions) (collection : String) : Bool :=
  options.collections.all (fun names => names.contains collection) &&
    !options.exclude.contains collection

structure ScanOptions where
  /-- The number of documents read at a time. -/
  batchSize : Nat := 100
  /-- The number of documents read of a collection. -/
  limit : Option Nat := none
deriving DecidableEq, Repr

/-- Values for each name for which there are any. -/
def collectNonempty {m : Type → Type} [Monad m] {α : Type} (isEmpty : α → Bool)
    (collect : String → m α) : List String → m (NameMap α)
  | [] => return .empty
  | name :: rest => do
    let found ← collect name
    let others ← collectNonempty isEmpty collect rest
    return if isEmpty found then others else others.insert name found

namespace Collection

/-- The documents, or their keys, that refer to keys of a collection through a foreign key. -/
def referringThrough (source : Collection) (keys : List Json) (options : ReferenceOptions)
    (name : String) : Access (List Json) :=
  let filter := Json.single name (.oneOf keys)
  if options.keysOnly then source.storedKeys filter none else Access.find source.name filter

/-- The documents, or their keys, that refer to keys of a collection. -/
def findReferences (collection : Collection) (keys : List Json) (options : ReferenceOptions) :
    Access ValuesByForeignKey :=
  if keys.isEmpty then return .empty
  else
    collectNonempty NameMap.isEmpty
      (fun referencing =>
        collectNonempty List.isEmpty
          ((collection.graph.collection referencing).referringThrough keys options)
          (collection.references.getD referencing .empty).keys)
      (collection.references.keys.filter options.includes)

/-- Reads a collection page by page, past the documents already scanned. A page that is not full is
the last one. As every other page holds a document, more fuel than there are documents is enough. -/
def scanPages (collection : Collection) (options : ScanOptions) (projection : List String) :
    Nat → Nat → Access (List Json)
  | 0, _ => return []
  | fuel + 1, scanned => do
    let batchSize := max options.batchSize 1
    let room :=
      match options.limit with
      | some limit => min batchSize (limit - scanned)
      | none => batchSize
    if room = 0 then return []
    let page ← Access.find collection.name (.object [])
      { skip := scanned, limit := some room, projection := some projection }
    if page.length < room then return page
    else
      let others ← scanPages collection options projection fuel (scanned + page.length)
      return page ++ others

/-- The values that belong to no document of a collection. -/
def unknownKeys (target : Collection) (values : List Json) : Access (List Json) := do
  if values.isEmpty then return []
  let existing ← target.storedKeys (target.keysQuery values) none
  return values.filter fun value => !Json.holds existing value

/-- The values of the foreign keys of a collection that belong to no document. -/
def danglingKeys (collection : Collection) (options : ScanOptions) :
    Access (NameMap (List Json)) := do
  let foreignKeys := collection.foreignKeys
  let projection := foreignKeys.values.map fun foreignKey => pathKey foreignKey.path
  let fuel := ((← get).store.documents collection.name).length + 1
  let documents ← collection.scanPages options projection fuel 0
  collectNonempty List.isEmpty
    (fun name =>
      match foreignKeys.get? name with
      | none => return []
      | some foreignKey =>
        (collection.target foreignKey).unknownKeys
          (Json.distinct (documents.flatMap fun document => document.valuesAt foreignKey.path)))
    foreignKeys.keys

end Collection

def Graph.findDanglingKeys (graph : Graph) (options : ScanOptions) : Access ValuesByForeignKey :=
  collectNonempty NameMap.isEmpty
    (fun name => (graph.collection name).danglingKeys options)
    ((graph.collections.filter fun _ links => !links.foreignKeys.isEmpty).keys)

def ValuesByForeignKey.toJson (values : ValuesByForeignKey) : Json :=
  NameMap.toJson (NameMap.toJson .array) values

end LinkedDocs
