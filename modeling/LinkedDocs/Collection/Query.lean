import LinkedDocs.Collection.Normalization

namespace LinkedDocs.Collection

variable [Platform]

def find (collection : Collection) (filter : Json) (options : FindOptions := {}) :
    Access (List Json) := do
  let filter ← collection.normalize filter
  Access.find collection.name filter options

def findOne (collection : Collection) (filter : Json) : Access (Option Json) := do
  let filter ← collection.normalize filter
  Access.findOne collection.name filter

def findByKey (collection : Collection) (key : Json) : Access (Option Json) :=
  Access.findOne collection.name (collection.keyQuery key)

def count (collection : Collection) (filter : Json) : Access Nat := do
  let filter ← collection.normalize filter
  Access.count collection.name filter none

def has (collection : Collection) (filter : Json) : Access Bool := do
  let filter ← collection.normalize filter
  return 0 < (← Access.count collection.name filter (some 1))

def hasKey (collection : Collection) (key : Json) : Access Bool := do
  return 0 < (← Access.count collection.name (collection.keyQuery key) (some 1))

/-- Whether there are as many documents with one of the keys as there are different keys. -/
def hasAllKeys (collection : Collection) (keys : List Json) : Access Bool := do
  let unique := Json.distinct keys
  if unique.isEmpty then return true
  else
    let found ← Access.count collection.name (collection.keysQuery unique) none
    return found == unique.length

/-- The values at a path of a document; the elements of an array count as values. -/
def fieldValues (path : String) (document : Json) : List Json :=
  (Filter.lookup document path).flatMap fun
    | none => []
    | some (.array items) => items
    | some value => [value]

/-- The different values at a path of the matching documents. -/
def distinct (collection : Collection) (path : String) (filter : Json) : Access (List Json) := do
  let filter ← collection.normalize filter
  let documents ← Access.find collection.name filter { projection := some [path] }
  return Json.distinct (documents.flatMap (fieldValues path))

def keys (collection : Collection) (filter : Json) : Access (List Json) := do
  let filter ← collection.normalize filter
  collection.storedKeys filter none

def update (collection : Collection) (filter update : Json) (options : UpdateOptions) :
    Access UpdateCount := do
  let filter ← collection.normalize filter
  Access.update collection.name filter update options

end LinkedDocs.Collection
