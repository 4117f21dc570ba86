import LinkedDocs.Json.Basic

/-!
How JSON values compare. `identical` tells whether a value changed: it keeps integers and doubles
apart and ignores the order of fields. `sameValue` is the equality of keys and conditions: it
compares numbers by value and objects field by field in order.
-/

namespace LinkedDocs.Json

mutual

def identical (left right : Json) : Bool :=
  match left, right with
  | .null, .null => true
  | .bool left, .bool right => left == right
  | .number left, .number right => left.identical right
  | .string left, .string right => left == right
  | .array left, .array right => identicalItems left right
  | .object left, .object right => left.length == right.length && identicalFields left right
  | _, _ => false
termination_by structural left

def identicalItems (left right : List Json) : Bool :=
  match left, right with
  | [], [] => true
  | first :: left, second :: right => identical first second && identicalItems left right
  | _, _ => false
termination_by structural left

/-- Whether each field on the left has an identical one on the right. -/
def identicalFields (left right : List (String × Json)) : Bool :=
  match left with
  | [] => true
  | (name, value) :: rest =>
    match lookupName name right with
    | some other => identical value other && identicalFields rest right
    | none => false
termination_by structural left

end

mutual

def sameValue (left right : Json) : Bool :=
  match left, right with
  | .null, .null => true
  | .bool left, .bool right => left == right
  | .number left, .number right => left.sameValue right
  | .string left, .string right => left == right
  | .array left, .array right => sameItems left right
  | .object left, .object right => sameFields left right
  | _, _ => false
termination_by structural left

def sameItems (left right : List Json) : Bool :=
  match left, right with
  | [], [] => true
  | first :: left, second :: right => sameValue first second && sameItems left right
  | _, _ => false
termination_by structural left

def sameFields (left right : List (String × Json)) : Bool :=
  match left, right with
  | [], [] => true
  | (first, value) :: left, (second, other) :: right =>
    first == second && sameValue value other && sameFields left right
  | _, _ => false
termination_by structural left

end

/-- The order of two numbers, strings or booleans; values of other kinds have none. -/
def order? : Json → Json → Option Ordering
  | .number left, .number right => some (left.toDouble.order right.toDouble)
  | .string left, .string right => some (compare left right)
  | .bool left, .bool right => some (compare left right)
  | _, _ => none

/-- Whether a list holds a value, up to `sameValue`. -/
def holds (values : List Json) (value : Json) : Bool :=
  values.any fun other => sameValue other value

/-- The first of every group of equal values, in order, after those in `seen`. -/
def distinctFrom (seen : List Json) : List Json → List Json
  | [] => seen
  | value :: rest =>
    if holds seen value then distinctFrom seen rest else distinctFrom (seen ++ [value]) rest

def distinct (values : List Json) : List Json :=
  distinctFrom [] values

end LinkedDocs.Json
