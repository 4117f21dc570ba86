import LinkedDocs.Collection.LazyDocuments
import LinkedDocs.Selector.Predicate

/-!
Selecting from documents. A selector is resolved against a value, whose collection and place are
known, or against a set of documents that is not read yet. Where the place is that of a foreign key,
the referenced documents are read, and resolution goes on in the target collection. Only the fields
that a selector can reach are read.
-/

namespace LinkedDocs

variable [Platform]

namespace Selector

/-- Unites the paths that two selectors read; `none` stands for the whole value. -/
def uniteReads (left right : Option (List String)) : Option (List String) :=
  match left, right with
  | some left, some right => some (Projection.absorb (left ++ right))
  | _, _ => none

def uniteAllReads : List (Option (List String)) → Option (List String)
  | [] => some []
  | first :: rest => rest.foldl uniteReads first

/-- The paths read through a field, of those that its selector reads below it. A foreign key is read
as it stands. -/
def fieldReads (foreignKeys : ForeignKeys) (path : List String) (name : String)
    (below : Option (List String)) : List String :=
  if foreignKeys.contains (joinPath path) then [name]
  else
    match below with
    | none => [name]
    | some paths => paths.map fun path => name ++ "." ++ path

mutual

/-- The paths that a selector reads below a place in the documents; `none` stands for the whole
value. What only some values need is read whole. -/
def readsAt (foreignKeys : ForeignKeys) (above : List String) (selector : Selector) :
    Option (List String) :=
  match selector with
  | .identity => none
  | .filter _ _ => none
  | .switch _ _ _ => none
  | .shortcut _ => none
  | .field name next =>
    some (fieldReads foreignKeys (above ++ [name]) name
      (readsAt foreignKeys (above ++ [name]) next))
  | .index _ next => readsAt foreignKeys above next
  | .map next => readsAt foreignKeys above next
  | .hardMap next => readsAt foreignKeys above next
  | .filterQuery _ next => readsAt foreignKeys above next
  | .tuple items => uniteAllReads (itemReads foreignKeys above items)
  | .object entries => uniteAllReads (entryReads foreignKeys above entries)
termination_by structural selector

def itemReads (foreignKeys : ForeignKeys) (above : List String) (items : List Selector) :
    List (Option (List String)) :=
  match items with
  | [] => []
  | item :: rest => readsAt foreignKeys above item :: itemReads foreignKeys above rest
termination_by structural items

def entryReads (foreignKeys : ForeignKeys) (above : List String)
    (entries : List (ObjectKey × Selector)) : List (Option (List String)) :=
  match entries with
  | [] => []
  | (.field name, next) :: rest =>
    some (fieldReads foreignKeys (above ++ [name]) name
      (readsAt foreignKeys (above ++ [name]) next)) :: entryReads foreignKeys above rest
  | (.wildcard, _) :: rest => none :: entryReads foreignKeys above rest
termination_by structural entries

end

/-- The paths that a selector reads from the documents of a collection; `none` stands for whole
documents. -/
def reads (selector : Selector) (foreignKeys : ForeignKeys) : Option (List String) :=
  readsAt foreignKeys [] selector

end Selector

structure SelectionOptions where
  /-- Whether foreign keys are followed; otherwise they are values like any others. -/
  followForeignKeys : Bool := true
  predicates : Predicates := fun _ => .constant false

/-- What a selector is resolved against. -/
inductive Subject where
  | value (value : Json)
  | documents (documents : LazyDocuments)

namespace Subject

/-- The value of a subject; a set of documents is read. -/
def read : Subject → Access Json
  | .value given => return given
  | .documents unread => return .array (← unread.fetch)

end Subject

/-- A place in the documents of a collection. -/
structure Place where
  collection : Collection
  stack : Stack := []

namespace Place

def below (place : Place) (segment : Segment) : Place :=
  { place with stack := place.stack ++ [segment] }

def fail {α : Type} (place : Place) (fault : ResolutionFault) : Access α :=
  throw (.resolution place.collection.name fault)

/-- The items of a subject, which has to be an array or a set of documents. -/
def items (place : Place) (fault : Json → ResolutionFault) (subject : Subject) :
    Access (List Json) := do
  match ← subject.read with
  | .array items => return items
  | other => place.fail (fault other)

end Place

/-- How a selector is resolved against a subject at a place. -/
abbrev Resolution := Subject → Place → Access Json

namespace Resolution

/-- Flattens one level. -/
def flatten (values : List Json) : List Json :=
  values.flatMap fun
    | .array items => items
    | value => [value]

/-- Resolves against each item of an array, from a position on. -/
def eachFrom (resolution : Resolution) (place : Place) (position : Nat) :
    List Json → Access (List Json)
  | [] => return []
  | item :: rest => do
    let resolved ← resolution (.value item) (place.below (.index position))
    let others ← eachFrom resolution place (position + 1) rest
    return resolved :: others

def each (resolution : Resolution) (place : Place) (items : List Json) : Access (List Json) :=
  resolution.eachFrom place 0 items

mutual

/-- Resolves against a value, or, in arrays at any depth, against their items; the results of an
array are flattened. -/
def spread (resolution : Json → Place → Access Json) (place : Place) (value : Json) :
    Access Json :=
  match value with
  | .array items => return .array (flatten (← spreadItems resolution place 0 items))
  | .null => resolution .null place
  | .bool value => resolution (.bool value) place
  | .number value => resolution (.number value) place
  | .string value => resolution (.string value) place
  | .object fields => resolution (.object fields) place
termination_by structural value

def spreadItems (resolution : Json → Place → Access Json) (place : Place) (position : Nat)
    (items : List Json) : Access (List Json) :=
  match items with
  | [] => return []
  | item :: rest => do
    let resolved ← spread resolution (place.below (.index position)) item
    let others ← spreadItems resolution place (position + 1) rest
    return resolved :: others
termination_by structural items

end

/-- Resolves the selector after a field whose value is given. At a foreign key, the referenced
document or documents are read, with the paths that the selector reads. -/
def follow (options : SelectionOptions) (next : Selector) (resolution : Resolution)
    (place : Place) (value : Json) : Access Json :=
  match if options.followForeignKeys then place.collection.foreignKeyAt? place.stack else none with
  | none => resolution (.value value) place
  | some foreignKey => do
    let target := place.collection.target foreignKey
    let projection := next.reads target.foreignKeys
    let subject ←
      match value with
      | .null => pure (Subject.value .null)
      | .array keys =>
        pure (Subject.documents { target.lazy (target.keysQuery keys) with projection })
      | key => do
        let found ← target.find (target.keyQuery key) { limit := some 1, projection }
        pure (Subject.value (found.head?.getD .null))
    resolution subject ⟨target, []⟩

/-- Resolves against a field of an object. -/
def field (options : SelectionOptions) (name : String) (next : Selector)
    (resolution : Resolution) (place : Place) (fields : List (String × Json)) : Access Json :=
  match lookupName name fields with
  | none => place.fail (.missingField name)
  | some value => follow options next resolution (place.below (.key name)) value

/-- Resolves against several fields of an object. -/
def fields (options : SelectionOptions) (next : Selector) (resolution : Resolution) (place : Place)
    (given : List (String × Json)) : List String → Access (List (String × Json))
  | [] => return []
  | name :: rest => do
    let resolved ← field options name next resolution place given
    let others ← fields options next resolution place given rest
    return (name, resolved) :: others

/-- The items that a predicate accepts. -/
def accepted (predicate : Predicate) (items : List Json) : List Json :=
  ((items.mapIdx fun position item => (item, predicate item (some position) items)).filter
    Prod.snd).map Prod.fst

end Resolution

namespace Selector

/-- The names that the entries of an object list. -/
def listedNames (entries : List (ObjectKey × Selector)) : List String :=
  entries.filterMap fun
    | (.field name, _) => some name
    | (.wildcard, _) => none

mutual

/-- Resolves a selector against a subject at a place. -/
def resolve (options : SelectionOptions) (selector : Selector) (subject : Subject)
    (place : Place) : Access Json :=
  match selector with
  | .identity => subject.read
  | .field name next => do
    let select (value : Json) (place : Place) : Access Json :=
      match value with
      | .object given => Resolution.field options name next (resolve options next) place given
      | other => place.fail (.fieldOfPrimitive name other)
    Resolution.spread select place (← subject.read)
  | .index position next => do
    let item ←
      match subject with
      | .documents documents => documents.fetchOne position
      | .value (.array items) => pure (items[position]?.getD .null)
      | .value other => place.fail (.indexOfPrimitive position other)
    resolve options next (.value item) (place.below (.index position))
  | .shortcut next =>
    match subject with
    | .value .null => return .null
    | subject => resolve options next subject place
  | .map next => do
    let items ← place.items .notMappable subject
    return .array (Resolution.flatten (← Resolution.each (resolve options next) place items))
  | .hardMap next => do
    let items ← place.items .notMappable subject
    return .array (← Resolution.each (resolve options next) place items)
  | .filter predicate next => do
    let items ← place.items .notFilterable subject
    resolve options next
      (.value (.array (Resolution.accepted (options.predicates predicate) items))) place
  | .switch predicate accepted otherwise => do
    let value ← subject.read
    if options.predicates predicate value none [] then
      resolve options accepted (.value value) place
    else
      resolve options otherwise (.value value) place
  | .filterQuery query next =>
    match subject with
    | .documents documents => resolve options next (.documents (documents.extend query)) place
    | .value other => place.fail (.queryOnValue query other)
  | .tuple items => return .array (← resolveItems options items subject place)
  | .object entries => do
    let build (value : Json) (place : Place) : Access Json :=
      match value with
      | .object given => do
        let resolved ← resolveEntries options (listedNames entries) given place entries
        return .object (mergeFields resolved)
      | other => place.fail (.objectOfPrimitive other)
    Resolution.spread build place (← subject.read)
termination_by structural selector

def resolveItems (options : SelectionOptions) (items : List Selector) (subject : Subject)
    (place : Place) : Access (List Json) :=
  match items with
  | [] => return []
  | item :: rest => do
    let resolved ← resolve options item subject place
    let others ← resolveItems options rest subject place
    return resolved :: others
termination_by structural items

/-- Resolves the entries of an object. A wildcard stands for the fields that are not listed. -/
def resolveEntries (options : SelectionOptions) (listed : List String)
    (given : List (String × Json)) (place : Place) (entries : List (ObjectKey × Selector)) :
    Access (List (String × Json)) :=
  match entries with
  | [] => return []
  | (key, next) :: rest => do
    let names :=
      match key with
      | .field name => [name]
      | .wildcard => (given.map Prod.fst).filter fun name => !listed.contains name
    let resolved ← Resolution.fields options next (resolve options next) place given names
    let others ← resolveEntries options listed given place rest
    return resolved ++ others
termination_by structural entries

end

end Selector

namespace Collection

/-- Resolves a selector against a value of a collection. -/
def resolve (collection : Collection) (options : SelectionOptions) (selector : Selector)
    (value : Json) : Access Json :=
  selector.resolve options (.value value) ⟨collection, []⟩

/-- Resolves a selector against the matching documents, of which only the paths are read that the
selector needs. -/
def select (collection : Collection) (options : SelectionOptions) (filter : Json)
    (selector : Selector) : Access Json :=
  let foreignKeys := if options.followForeignKeys then collection.foreignKeys else .empty
  let documents := { collection.lazy filter with projection := selector.reads foreignKeys }
  selector.resolve options (.documents documents) ⟨collection, []⟩

end Collection

end LinkedDocs
