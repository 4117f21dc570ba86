import LinkedDocs.Collection.Basic

/-!
Foreign queries. At a foreign key, `$in` and `$nin` may hold a filter query on the target collection
in place of keys, or a list with such queries in it. Normalization runs these queries and puts the
keys of the matching documents in their place, so that the store can evaluate the filter query.
-/

namespace LinkedDocs.Collection

variable [Platform]

/-- The operators that take a set of keys. -/
def keySetOperator? (name : String) : Option Operator :=
  if name = Operator.isIn.name then some .isIn
  else if name = Operator.notIn.name then some .notIn
  else none

/-- Whether a condition has an operator that takes a set of keys. -/
def takesKeySet (fields : List (String × Json)) : Bool :=
  fields.any fun field => (keySetOperator? field.1).isSome

mutual

/-- Normalizes the part of a filter query at a place in the documents of a collection. -/
def normalizeAt (collection : Collection) (stack : Stack) (filter : Json) : Access Json :=
  match filter with
  | .object fields =>
    match if takesKeySet fields then collection.foreignKeyAt? stack else none with
    | some foreignKey =>
      return .object (← keySetFields collection (collection.target foreignKey) fields)
    | none => return .object (← normalizeFields collection stack fields)
  | .array items => return .array (← normalizeItems collection stack 0 items)
  | .null => return .null
  | .bool value => return .bool value
  | .number value => return .number value
  | .string value => return .string value
termination_by structural filter

def normalizeItems (collection : Collection) (stack : Stack) (position : Nat)
    (items : List Json) : Access (List Json) :=
  match items with
  | [] => return []
  | item :: rest => do
    let normalized ← normalizeAt collection (stack ++ [.index position]) item
    let others ← normalizeItems collection stack (position + 1) rest
    return normalized :: others
termination_by structural items

def normalizeFields (collection : Collection) (stack : Stack) (fields : List (String × Json)) :
    Access (List (String × Json)) :=
  match fields with
  | [] => return []
  | (name, value) :: rest => do
    let normalized ← normalizeAt collection (stack ++ [.key name]) value
    let others ← normalizeFields collection stack rest
    return (name, normalized) :: others
termination_by structural fields

/-- Puts keys in place of the queries in the key sets of a condition on a foreign key. -/
def keySetFields (collection target : Collection) (fields : List (String × Json)) :
    Access (List (String × Json)) :=
  match fields with
  | [] => return []
  | (name, argument) :: rest => do
    let normalized ←
      match keySetOperator? name with
      | none => pure argument
      | some operator =>
        if argument.isObject then do
          let filter ←
            if target.foreignKeys.isEmpty then pure argument else normalizeAt target [] argument
          pure (.array (← target.storedKeys filter none))
        else
          keySet collection target operator argument
    let others ← keySetFields collection target rest
    return (name, normalized) :: others
termination_by structural fields

/-- Puts keys in place of the queries in a list of keys and queries. -/
def keySet (collection target : Collection) (operator : Operator) (argument : Json) :
    Access Json :=
  match argument with
  | .array items => return .array (← keySetItems target items)
  | other => throw (.invalidQuery collection.name (.keySetExpected operator target.name other))
termination_by structural argument

def keySetItems (target : Collection) (items : List Json) : Access (List Json) :=
  match items with
  | [] => return []
  | item :: rest => do
    let keys ←
      if item.isObject then do
        let filter ←
          if target.foreignKeys.isEmpty then pure item else normalizeAt target [] item
        target.storedKeys filter none
      else
        pure [item]
    let others ← keySetItems target rest
    return keys ++ others
termination_by structural items

end

/-- Puts keys in place of the foreign queries of a filter query. -/
def normalize (collection : Collection) (filter : Json) : Access Json :=
  if collection.foreignKeys.isEmpty then return filter else normalizeAt collection [] filter

end LinkedDocs.Collection
