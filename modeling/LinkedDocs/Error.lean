import LinkedDocs.Filter
import LinkedDocs.Identifier
import LinkedDocs.Schema.Basic
import LinkedDocs.Selector.Symbol

/-!
Everything that can go wrong, each error as its cause. A message names the collection and the field
or key that are involved.
-/

namespace LinkedDocs

/-- What a name in a schema is used for. -/
inductive NameRole where
  | collection
  | primaryKey
  | foreignKeyPath
  | foreignCollection
deriving DecidableEq, Repr

def NameRole.text : NameRole → String
  | .collection => "collection name"
  | .primaryKey => "primary key"
  | .foreignKeyPath => "foreign key path"
  | .foreignCollection => "foreign collection name"

/-- Why a delete policy cannot be carried out on a path. -/
inductive PolicyFault where
  | nothingToPull
  | endsWithWildcard
  | noTarget
deriving DecidableEq, Repr

def PolicyFault.text : PolicyFault → String
  | .nothingToPull => "the path has no '$' segment to pull from"
  | .endsWithWildcard => "the path ends with a '$' array wildcard, use PULL"
  | .noTarget => "no update target was compiled for this foreign key"

inductive LoadFault where
  | unsupportedExtension (extension : String)
  | declaredTwice (collection : String)
  | unreadable
  | malformed
deriving DecidableEq, Repr

/-- A text between quotation marks, with the characters escaped that would not show. -/
def quotedExtension (text : String) : String :=
  String.ofList ('"' :: text.toList.flatMap (fun
    | '"' => ['\\', '"']
    | '\\' => ['\\', '\\']
    | '\n' => ['\\', 'n']
    | '\r' => ['\\', 'r']
    | '\t' => ['\\', 't']
    | character =>
      if character.toNat < 0x20 || character.toNat = 0x7F then
        ['\\', 'u', '\x7b'] ++ Nat.toDigits 16 character.toNat ++ ['\x7d']
      else
        [character]) ++ ['"'])

def LoadFault.message : LoadFault → String
  | .unsupportedExtension extension =>
    "unsupported schema extension " ++ quotedExtension extension
  | .declaredTwice collection =>
    "collection '" ++ collection ++ "' is declared by more than one file"
  | .unreadable => "the file cannot be read"
  | .malformed => "the file is not a well-formed declaration"

inductive ResolutionFault where
  | fieldOfPrimitive (name : String) (value : Json)
  | missingField (name : String)
  | indexOfPrimitive (position : Nat) (value : Json)
  | objectOfPrimitive (value : Json)
  | notMappable (value : Json)
  | notFilterable (value : Json)
  | queryOnValue (query value : Json)
  /-- A walk was told to stop at a key. -/
  | stopped (key : String)
deriving Repr

def ResolutionFault.message : ResolutionFault → String
  | .fieldOfPrimitive name value =>
    "Can't select field <" ++ name ++ "> in primitive value " ++ value.toText
  | .missingField name => "Can't select missing field <" ++ name ++ ">"
  | .indexOfPrimitive position value =>
    "Can't select index <" ++ toString position ++ "> in non-array value " ++ value.toText
  | .objectOfPrimitive value =>
    "Can't build an object from primitive value " ++ value.toText
  | .notMappable value => "Can't map over non-array value " ++ value.toText
  | .notFilterable value => "Can't filter non-array value " ++ value.toText
  | .queryOnValue query value =>
    "Filter query " ++ query.toText ++
      " can only narrow documents referenced by a foreign key, got " ++ value.toText
  | .stopped key => "stopped at " ++ key

inductive ViolationFault where
  | nestedWithoutKey (key target : String)
  | unmatched (values : List Json) (target : String)
deriving Repr

def ViolationFault.message : ViolationFault → String
  | .nestedWithoutKey key target =>
    "nested document has no '" ++ key ++ "' key for collection '" ++ target ++ "'"
  | .unmatched values target =>
    "some of " ++ (Json.array values).toText ++
      " don't match any document in collection '" ++ target ++ "'"

inductive InvalidQueryFault where
  | query (fault : QueryFault)
  | idImmutable
  | keySetExpected (operator : Operator) (target : String) (value : Json)
deriving Repr

def InvalidQueryFault.message : InvalidQueryFault → String
  | .query fault => fault.message
  | .idImmutable => "the _id field is immutable"
  | .keySetExpected operator target value =>
    "<" ++ operator.name ++ "> expects keys or a filter query on collection '" ++ target ++
      "', got " ++ value.toText

/-- The operations that a store offers. -/
inductive StoreMethod where
  | find
  | count
  | insertOne
  | insertMany
  | update
  | replaceOne
  | deleteMany
  | dropCollection
  | collectionNames
deriving DecidableEq, Repr

namespace StoreMethod

def name : StoreMethod → String
  | .find => "find"
  | .count => "count"
  | .insertOne => "insert_one"
  | .insertMany => "insert_many"
  | .update => "update"
  | .replaceOne => "replace_one"
  | .deleteMany => "delete_many"
  | .dropCollection => "drop_collection"
  | .collectionNames => "collection_names"

def all : List StoreMethod :=
  [find, count, insertOne, insertMany, update, replaceOne, deleteMany, dropCollection,
    collectionNames]

def ofName? (name : String) : Option StoreMethod :=
  all.find? fun method => method.name = name

end StoreMethod

inductive StoreFault where
  | notAnObject
  | collectionNotAnArray
  | duplicateId (id : Json)
  | refused (method : StoreMethod)
deriving Repr

def StoreFault.message : StoreFault → String
  | .notAnObject => "documents must be objects"
  | .collectionNotAnArray => "fixture collection must be an array"
  | .duplicateId id => "duplicate _id " ++ id.toText
  | .refused method => method.name ++ " is disabled"

inductive JsonFault where
  | fixtureShape
  | malformed
deriving DecidableEq, Repr

def JsonFault.message : JsonFault → String
  | .fixtureShape => "fixture must map collection names to arrays of documents"
  | .malformed => "malformed text"

inductive Error where
  | sameKey (collection first second foreignKey : String)
  | invalidName (collection : String) (role : NameRole) (error : SpellingError)
  | incoherentPolicy (collection foreignKey : String) (policy : DeletePolicy) (fault : PolicyFault)
  | schemaLoad (path : String) (fault : LoadFault)
  | parse (error : Selector.ParseError)
  | resolution (collection : String) (fault : ResolutionFault)
  | violation (collection foreignKey : String) (fault : ViolationFault)
  | deleteRejected (collection referencing foreignKey : String)
  | invalidQuery (collection : String) (fault : InvalidQueryFault)
  | store (collection : String) (fault : StoreFault)
  | yaml
  | json (fault : JsonFault)
  | unreadableFile (path : String)
deriving Repr

namespace Error

def message : Error → String
  | .sameKey collection first second foreignKey =>
    "Invalid schema: foreign keys <" ++ first ++ "> and <" ++ second ++ "> in collection <" ++
      collection ++ "> both resolve to <" ++ foreignKey ++ ">"
  | .invalidName collection role error =>
    "Invalid " ++ role.text ++ " '" ++ error.value ++ "' in collection '" ++ collection ++ "': " ++
      error.reason
  | .incoherentPolicy collection foreignKey policy fault =>
    "Foreign key '" ++ foreignKey ++ "' in collection '" ++ collection ++
      "' can't implement the " ++ policy.name ++ " delete policy: " ++ fault.text
  | .schemaLoad path fault =>
    "Failed to load schema from '" ++ path ++ "': " ++ fault.message
  | .parse error => error.display
  | .resolution collection fault =>
    "Selector resolution failed in collection '" ++ collection ++ "': " ++ fault.message
  | .violation collection foreignKey fault =>
    "Invalid foreign key '" ++ foreignKey ++ "' in collection '" ++ collection ++ "': " ++
      fault.message
  | .deleteRejected collection referencing foreignKey =>
    "Delete in collection '" ++ collection ++ "' rejected: foreign key '" ++ foreignKey ++
      "' in collection '" ++ referencing ++ "' points to targeted documents"
  | .invalidQuery collection fault =>
    "Invalid query in collection '" ++ collection ++ "': " ++ fault.message
  | .store collection fault =>
    "Store error in collection '" ++ collection ++ "': " ++ fault.message
  | .yaml => "Failed to parse YAML: malformed text"
  | .json fault => "Failed to parse JSON: " ++ fault.message
  | .unreadableFile path => "cannot read '" ++ path ++ "'"

/-- What the user may do about an error. -/
def suggestion : Error → Option String
  | .invalidName _ _ _ =>
    some "Identifiers must match [A-Za-z_-][A-Za-z0-9_-]*, paths join them with dots"
  | .incoherentPolicy _ _ _ _ =>
    some "PULL needs a '$' segment in the path; UNSET and NULLIFY can't end with '$'"
  | .violation _ _ _ =>
    some ("Insert the referenced document first, or set the foreign key's onInsert to " ++
      "BYPASS")
  | .deleteRejected _ _ _ =>
    some ("Delete or update the referencing documents first, or use find_references to list " ++
      "them")
  | .parse _ => some "Check the selector syntax around the reported position"
  | _ => none

/-- Whether the caller can go on with other input. -/
def isRecoverable : Error → Bool
  | .parse _ => true
  | .resolution _ _ => true
  | .violation _ _ _ => true
  | .deleteRejected _ _ _ => true
  | .invalidQuery _ _ => true
  | _ => false

end Error

end LinkedDocs
