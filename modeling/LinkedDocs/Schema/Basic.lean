import LinkedDocs.NameMap

namespace LinkedDocs

/-- What happens when a document that holds a foreign key is inserted. -/
inductive InsertPolicy where
  | bypass
  /-- Every key has to belong to a document of the target collection. -/
  | verify
deriving DecidableEq, Repr

/-- What happens to the referring documents when a document is deleted. -/
inductive DeletePolicy where
  | bypass
  | reject
  /-- The referring documents are deleted, too. -/
  | delete
  /-- The field is removed. -/
  | unset
  /-- The field is set to null. -/
  | nullify
  /-- The matching elements are removed from the array. -/
  | pull
deriving DecidableEq, Repr

namespace InsertPolicy

def name : InsertPolicy → String
  | .bypass => "BYPASS"
  | .verify => "VERIFY"

def ofName? (name : String) : Option InsertPolicy :=
  [bypass, verify].find? fun policy => policy.name = name

end InsertPolicy

namespace DeletePolicy

def name : DeletePolicy → String
  | .bypass => "BYPASS"
  | .reject => "REJECT"
  | .delete => "DELETE"
  | .unset => "UNSET"
  | .nullify => "NULLIFY"
  | .pull => "PULL"

def ofName? (name : String) : Option DeletePolicy :=
  [bypass, reject, delete, unset, nullify, pull].find? fun policy => policy.name = name

end DeletePolicy

structure ForeignKeyDeclaration where
  /-- The target; a foreign key without one refers to its own collection. -/
  collection : Option String := none
  onInsert : Option InsertPolicy := none
  onDelete : Option DeletePolicy := none
deriving DecidableEq, Repr, Inhabited

structure CollectionDeclaration where
  key : Option String := none
  foreignKeys : NameMap ForeignKeyDeclaration := .empty
deriving DecidableEq, Repr, Inhabited

structure Schema where
  collections : NameMap CollectionDeclaration := .empty
deriving DecidableEq, Repr, Inhabited

namespace CollectionDeclaration

def addForeignKey (declaration : CollectionDeclaration) (path : String)
    (foreignKey : ForeignKeyDeclaration) : CollectionDeclaration :=
  { declaration with foreignKeys := declaration.foreignKeys.insert path foreignKey }

end CollectionDeclaration

namespace Schema

def addCollection (schema : Schema) (name : String) (declaration : CollectionDeclaration) :
    Schema :=
  { schema with collections := schema.collections.insert name declaration }

def get? (schema : Schema) (name : String) : Option CollectionDeclaration :=
  schema.collections.get? name

end Schema

end LinkedDocs
