import LinkedDocs.Path

/-!
Projections: the part of a document at given paths. Arrays are entered element by element and keep
their length, so projections of one document can be merged position by position.
-/

namespace LinkedDocs

/-- The field that identifies a document in its collection; every projection keeps it. -/
def idField : String := "_id"

namespace Projection

/-- Whether a path lies strictly below another one. -/
def isBelow (path parent : String) : Bool :=
  (parent.toList ++ ['.']).isPrefixOf path.toList

/-- Appends the paths that are not there yet and lie below none of `all`. -/
def absorbInto (all kept : List String) : List String → List String
  | [] => kept
  | path :: rest =>
    if all.any (isBelow path) || kept.contains path then absorbInto all kept rest
    else absorbInto all (kept ++ [path]) rest

/-- Drops repeated paths and every path that lies below another one. -/
def absorb (paths : List String) : List String :=
  absorbInto paths [] paths

/-- The value reduced to what lies on one path. A null or scalar on the way is kept; an element of
an array in which the path is missing becomes an empty object. -/
def reduce? : List String → Json → Option Json
  | [], value => some value
  | segment :: rest, value =>
    let below (fields : List (String × Json)) : Option Json :=
      match lookupName segment fields with
      | some child => (reduce? rest child).map fun child => .object [(segment, child)]
      | none => none
    reduceValue below value
where
  /-- Enters arrays, also in arrays, down to the objects in them. -/
  reduceValue (below : List (String × Json) → Option Json) : Json → Option Json
    | .object fields => below fields
    | .array items => some (.array (reduceItems below items))
    | .null => some .null
    | .bool value => some (.bool value)
    | .number value => some (.number value)
    | .string value => some (.string value)
  reduceItems (below : List (String × Json) → Option Json) : List Json → List Json
    | [] => []
    | item :: rest => (reduceValue below item).getD (.object []) :: reduceItems below rest

mutual

/-- Merges two projections of one value. -/
def merge (target source : Json) : Json :=
  match source with
  | .object fields =>
    match target with
    | .object existing => .object (mergeFields existing fields)
    | _ => .object fields
  | .array items =>
    match target with
    | .array existing => .array (mergeItems existing items)
    | _ => .array items
  | .null => .null
  | .bool value => .bool value
  | .number value => .number value
  | .string value => .string value
termination_by structural source

def mergeFields (target source : List (String × Json)) : List (String × Json) :=
  match source with
  | [] => target
  | (name, value) :: rest =>
    match lookupName name target with
    | some existing => mergeFields (putField name (merge existing value) target) rest
    | none => mergeFields (putField name value target) rest
termination_by structural source

/-- Merges element by element; elements past the end of the source are kept. -/
def mergeItems (target source : List Json) : List Json :=
  match source with
  | [] => target
  | item :: rest =>
    match target with
    | [] => []
    | existing :: others => merge existing item :: mergeItems others rest
termination_by structural source

end

/-- The part of a document at the given paths, and its id. -/
def project (paths : List String) (document : Json) : Json :=
  (absorb (idField :: paths)).foldl
    (fun result path =>
      match reduce? (splitPath path) document with
      | some part => merge result part
      | none => result)
    (.object [])

end Projection

end LinkedDocs
