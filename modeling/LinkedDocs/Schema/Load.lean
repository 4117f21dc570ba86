import LinkedDocs.FileTree
import LinkedDocs.Schema.Reader

namespace LinkedDocs.Schema

variable {m : Type → Type} [Monad m]

/-- The formats in which a schema may be written. -/
inductive Format where
  | json
  | yaml
deriving DecidableEq, Repr

def Format.ofExtension? (extension : String) : Option Format :=
  if extension = "json" then some .json
  else if extension = "yaml" || extension = "yml" then some .yaml
  else none

def Format.readSchema? (format : Format) (content : String) : Option Schema :=
  match format with
  | .json => (Schema.ofJsonText content).toOption
  | .yaml => (Schema.ofYamlText content).toOption

def Format.readCollection? (format : Format) (content : String) : Option CollectionDeclaration :=
  match format with
  | .json => CollectionDeclaration.ofJsonText? content
  | .yaml => CollectionDeclaration.ofYamlText? content

def loadFile (files : FileAccess m) (path : String) : ExceptT Error m Schema := do
  match ← files.content? path with
  | none => throw (.schemaLoad path .unreadable)
  | some content =>
    let extension := ((fileName? path).bind fun name => (splitExtension name).2).getD ""
    match Format.ofExtension? extension with
    | none => throw (.schemaLoad path (.unsupportedExtension extension))
    | some format =>
      match format.readSchema? content with
      | some schema => return schema
      | none => throw (.schemaLoad path .malformed)

/-- Adds the declarations of files with a known extension; other files are passed over. -/
def loadEntries (files : FileAccess m) (directory : String) (schema : Schema) :
    List String → ExceptT Error m Schema
  | [] => return schema
  | name :: rest => do
    let (collection, extension) := splitExtension name
    match extension.bind Format.ofExtension? with
    | none => loadEntries files directory schema rest
    | some format =>
      let path := joinFilePath directory name
      if (schema.get? collection).isSome then throw (.schemaLoad path (.declaredTwice collection))
      match ← files.content? path with
      | none => throw (.schemaLoad path .unreadable)
      | some content =>
        match format.readCollection? content with
        | some declaration =>
          loadEntries files directory (schema.addCollection collection declaration) rest
        | none => throw (.schemaLoad path .malformed)

/-- Loads a schema file, or the files of a directory in the order of their names. -/
def load (files : FileAccess m) (path : String) : ExceptT Error m Schema := do
  match ← files.entries? path with
  | none => loadFile files path
  | some entries =>
    let names := (entries.filter DirectoryEntry.isFile).map DirectoryEntry.name
    loadEntries files path {} (NameMap.ofList (names.map fun name => (name, ()))).keys

end LinkedDocs.Schema
