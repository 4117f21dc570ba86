import LinkedDocs.Graph
import LinkedDocs.Store.Session

namespace LinkedDocs

variable [Platform]

structure Collection where
  graph : Graph
  name : String
deriving DecidableEq, Repr

def Graph.collection (graph : Graph) (name : String) : Collection := ⟨graph, name⟩

namespace Collection

def links (collection : Collection) : CollectionLinks :=
  collection.graph.links collection.name

/-- The path of the primary key. -/
def key (collection : Collection) : String :=
  collection.links.key

def foreignKeys (collection : Collection) : ForeignKeys :=
  collection.links.foreignKeys

def references (collection : Collection) : References :=
  collection.links.references

/-- The collection to which a foreign key refers. -/
def target (collection : Collection) (foreignKey : ForeignKey) : Collection :=
  collection.graph.collection foreignKey.collection

/-- The foreign key at a place in the documents of a collection. -/
def foreignKeyAt? (collection : Collection) (stack : Stack) : Option ForeignKey :=
  collection.foreignKeys.get? (canonicalKey stack)

/-- The filter query for the documents with a key. -/
def keyQuery (collection : Collection) (key : Json) : Json :=
  .single collection.key key

/-- The filter query for the documents with one of some keys. -/
def keysQuery (collection : Collection) (keys : List Json) : Json :=
  .single collection.key (.oneOf keys)

/-- The key of a document, unless it has none. -/
def keyOf? (collection : Collection) (document : Json) : Option Json :=
  document.getPath? collection.key

/-- The keys of the documents that match a normalized filter query. -/
def storedKeys (collection : Collection) (filter : Json) (limit : Option Nat) :
    Access (List Json) := do
  let documents ← Access.find collection.name filter { limit, projection := some [collection.key] }
  return documents.filterMap collection.keyOf?

end Collection

end LinkedDocs
