import LinkedDocs.Collection.Query

namespace LinkedDocs

variable [Platform]

structure LazyDocuments where
  collection : Collection
  queries : List Json
  projection : Option (List String) := none
deriving Repr

namespace LazyDocuments

def extend (documents : LazyDocuments) (query : Json) : LazyDocuments :=
  { documents with queries := documents.queries ++ [query] }

/-- All queries as one. -/
def query (documents : LazyDocuments) : Json :=
  match documents.queries with
  | [] => .object []
  | [query] => query
  | queries => .single Connective.conjunction.name (.array queries)

def fetch (documents : LazyDocuments) : Access (List Json) :=
  documents.collection.find documents.query { projection := documents.projection }

/-- The document at a position of the set, or null when there is none. -/
def fetchOne (documents : LazyDocuments) (position : Nat) : Access Json := do
  let found ← documents.collection.find documents.query
    { skip := position, limit := some 1, projection := documents.projection }
  return found.head?.getD .null

end LazyDocuments

def Collection.lazy (collection : Collection) (filter : Json) : LazyDocuments :=
  { collection, queries := [filter] }

end LinkedDocs
