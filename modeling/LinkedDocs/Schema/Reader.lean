import LinkedDocs.Error
import LinkedDocs.Json.Reader
import LinkedDocs.Yaml.Reader

namespace LinkedDocs

/-- How a format spells the parts of a schema. -/
structure SchemaFormat (Node : Type) where
  entries? : Node → Option (List (String × Node))
  /-- The fields of a record with the given field names. -/
  fields? : List String → Node → Option (List (String × Node))
  text? : Node → Option String
  choice? : Node → Option String
  isAbsent : Node → Bool

namespace SchemaFormat

def distinctNames : List String → Bool
  | [] => true
  | name :: rest => !rest.contains name && distinctNames rest

/-- The fields of a record that has known fields only, none of them twice. -/
def record? {Node : Type} (format : SchemaFormat Node) (names : List String) (node : Node) :
    Option (List (String × Node)) := do
  let fields ← format.fields? names node
  let given := fields.map Prod.fst
  if given.all names.contains && distinctNames given then some fields else none

/-- A field of a record, if it is there and not absent. -/
def optional? {Node α : Type} (format : SchemaFormat Node) (read? : Node → Option α) (name : String)
    (fields : List (String × Node)) : Option (Option α) :=
  match lookupName name fields with
  | none => some none
  | some node => if format.isAbsent node then some none else (read? node).map some

def readForeignKey? {Node : Type} (format : SchemaFormat Node) (node : Node) :
    Option ForeignKeyDeclaration := do
  let fields ← format.record? ["collection", "onInsert", "onDelete"] node
  let collection ← format.optional? format.text? "collection" fields
  let onInsert ← format.optional?
    (fun node => (format.choice? node).bind InsertPolicy.ofName?) "onInsert" fields
  let onDelete ← format.optional?
    (fun node => (format.choice? node).bind DeletePolicy.ofName?) "onDelete" fields
  return { collection, onInsert, onDelete }

def readEntries? {Node α : Type} (read? : Node → Option α) :
    List (String × Node) → Option (List (String × α))
  | [] => some []
  | (name, node) :: rest => do
    let value ← read? node
    let others ← readEntries? read? rest
    return (name, value) :: others

/-- A map with read values; of a repeated name the last value stays. -/
def readMap? {Node α : Type} (format : SchemaFormat Node) (read? : Node → Option α) (node : Node) :
    Option (NameMap α) := do
  return .ofList (← readEntries? read? (← format.entries? node))

def readCollection? {Node : Type} (format : SchemaFormat Node) (node : Node) :
    Option CollectionDeclaration := do
  let fields ← format.record? ["key", "foreignKeys"] node
  let key ← format.optional? format.text? "key" fields
  let foreignKeys ←
    match lookupName "foreignKeys" fields with
    | none => some .empty
    | some node => format.readMap? format.readForeignKey? node
  return { key, foreignKeys }

def readSchema? {Node : Type} (format : SchemaFormat Node) (node : Node) : Option Schema := do
  return { collections := ← format.readMap? format.readCollection? node }

/-- JSON spells a record as an object, or as the array of its first fields in order, and a choice
as a string, or as an object that holds null under its name. -/
def json : SchemaFormat Json where
  entries? := Json.object?
  fields? names
    | .object fields => some fields
    | .array items => if items.length ≤ names.length then some (names.zip items) else none
    | _ => none
  text? := Json.string?
  choice?
    | .string name => some name
    | .object [(name, .null)] => some name
    | _ => none
  isAbsent := Json.isNull

def scalar? : Yaml → Option Yaml.Scalar
  | .scalar scalar => some scalar
  | _ => none

def yamlEntries? : Yaml → Option (List (String × Yaml))
  | .mapping entries => entries.mapM fun (key, value) => do return ((← scalar? key).text, value)
  | .scalar scalar => if scalar.plain && scalar.text = "" then some [] else none
  | .sequence _ => none

/-- YAML spells a map or record as a mapping or leaves it out, and any scalar is a text. -/
def yaml : SchemaFormat Yaml where
  entries? := yamlEntries?
  fields? _ := yamlEntries?
  text? node := (scalar? node).map Yaml.Scalar.text
  choice? node := (scalar? node).map Yaml.Scalar.text
  isAbsent node := (scalar? node).any fun scalar =>
    scalar.plain && ["", "~", "null", "Null", "NULL"].contains scalar.text

end SchemaFormat

namespace CollectionDeclaration

def ofJsonText? (text : String) : Option CollectionDeclaration := do
  SchemaFormat.json.readCollection? (← Json.readRaw? text)

def ofYamlText? (text : String) : Option CollectionDeclaration := do
  SchemaFormat.yaml.readCollection? (← Yaml.read? text)

end CollectionDeclaration

namespace Schema

def ofJson (value : Json) : Except Error Schema :=
  match SchemaFormat.json.readSchema? value with
  | some schema => .ok schema
  | none => .error (.json .malformed)

/-- Reads a schema from a text, given a reader of JSON texts. -/
def ofText (read? : String → Option Json) (text : String) : Except Error Schema :=
  match read? text with
  | some value => ofJson value
  | none => .error (.json .malformed)

def ofJsonText (text : String) : Except Error Schema := ofText Json.readRaw? text

def ofYamlText (text : String) : Except Error Schema :=
  match (Yaml.read? text).bind SchemaFormat.yaml.readSchema? with
  | some schema => .ok schema
  | none => .error .yaml

end Schema

/-- The field for a value that may be left out. -/
def optionalField (name : String) (value : Option String) : List (String × Json) :=
  (value.map fun text => (name, Json.string text)).toList

def ForeignKeyDeclaration.toJson (declaration : ForeignKeyDeclaration) : Json :=
  .object (optionalField "collection" declaration.collection ++
    optionalField "onInsert" (declaration.onInsert.map InsertPolicy.name) ++
    optionalField "onDelete" (declaration.onDelete.map DeletePolicy.name))

def CollectionDeclaration.toJson (declaration : CollectionDeclaration) : Json :=
  .object (optionalField "key" declaration.key ++
    if declaration.foreignKeys.isEmpty then []
    else [("foreignKeys", declaration.foreignKeys.toJson ForeignKeyDeclaration.toJson)])

def Schema.toJson (schema : Schema) : Json :=
  schema.collections.toJson CollectionDeclaration.toJson

end LinkedDocs
