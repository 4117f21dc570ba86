import LinkedDocs.Json.Basic

/-!
Dotted paths into documents, the stack of a value under traversal, and the canonical key that both
have: the key of a stack leaves out indices and names marked with `$`, so all elements of an array
have one key.
-/

namespace LinkedDocs

/-- The pieces of a text between the separators; there is always at least one. -/
def splitChars (separator : Char) : List Char → List (List Char)
  | [] => [[]]
  | character :: rest =>
    if character = separator then [] :: splitChars separator rest
    else
      match splitChars separator rest with
      | [] => [[character]]
      | first :: others => (character :: first) :: others

def splitPath (path : String) : List String :=
  (splitChars '.' path.toList).map String.ofList

def joinPath (segments : List String) : String :=
  ".".intercalate segments

/-- The segment of a foreign key path that stands for every element of an array. -/
def wildcard : String := "$"

def isMarked (name : String) : Bool :=
  name.toList.head? == some '$'

/-- The canonical key of a foreign key path. -/
def pathKey (path : List String) : String :=
  joinPath (path.filter fun segment => segment ≠ wildcard)

inductive Segment where
  | key (name : String)
  | index (position : Nat)
deriving DecidableEq, Repr

/-- The steps from the root of a document to a value in it. -/
abbrev Stack := List Segment

def Segment.toText : Segment → String
  | .key name => name
  | .index position => toString position

def canonicalKey (stack : Stack) : String :=
  joinPath (stack.filterMap fun
    | .key name => if isMarked name then none else some name
    | .index _ => none)

/-- The value of decimal digits, unless it takes more than 64 bits. -/
def decimalValue? (digits : List Char) : Option Nat :=
  let value := digits.foldl (fun value digit => value * 10 + (digit.toNat - '0'.toNat)) 0
  if value < UInt64.size then some value else none

/-- Reads an index written in decimal digits, after an optional plus sign, that fits 64 bits. -/
def index? (text : String) : Option Nat :=
  let digits :=
    match text.toList with
    | '+' :: rest => rest
    | characters => characters
  if digits.isEmpty || !digits.all Char.isDigit then none else decimalValue? digits

namespace Json

/-- One step of a dotted path: a field of an object or an element of an array. -/
def step? (value : Json) (segment : String) : Option Json :=
  match value with
  | .object fields => lookupName segment fields
  | .array items => (index? segment).bind fun position => items[position]?
  | _ => none

def follow? (value : Json) : List String → Option Json
  | [] => some value
  | segment :: rest => (value.step? segment).bind fun child => child.follow? rest

/-- The value at a dotted path. The empty path leads to the value itself. -/
def getPath? (value : Json) (path : String) : Option Json :=
  if path = "" then some value else value.follow? (splitPath path)

/-- The values at a foreign key path. A wildcard descends into each element of an array; an array at
the end of the path holds several values; nulls are skipped. -/
def valuesAt (value : Json) : List String → List Json
  | [] =>
    match value with
    | .null => []
    | .array items => items.filter fun item => !item.isNull
    | value => [value]
  | segment :: rest =>
    if segment = wildcard then
      match value with
      | .array items => items.flatMap fun item => item.valuesAt rest
      | _ => []
    else
      match value with
      | .object fields =>
        match lookupName segment fields with
        | some child => child.valuesAt rest
        | none => []
      | _ => []

end Json

end LinkedDocs
