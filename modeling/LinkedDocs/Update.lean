import LinkedDocs.Filter

/-!
Update operators. A target is a dotted path in which `$[]` stands for every element of an array and
`$[name]` for the elements that the array filters bound to the name accept.
-/

namespace LinkedDocs

variable [Platform]

inductive UpdateOperator where
  | set
  | unset
  | pull
  | push
deriving DecidableEq, Repr

namespace UpdateOperator

def name : UpdateOperator → String
  | .set => "$set"
  | .unset => "$unset"
  | .pull => "$pull"
  | .push => "$push"

def ofName? (name : String) : Option UpdateOperator :=
  [set, unset, pull, push].find? fun operator => operator.name = name

/-- Whether fields on the way to the target are created when they are missing. -/
def creates : UpdateOperator → Bool
  | .set => true
  | .unset => false
  | .pull => false
  | .push => true

end UpdateOperator

namespace Update

/-- What an operator does at the field or element that it reaches. -/
inductive Change where
  | keep
  | put (value : Json)
  | remove
deriving Repr

/-- Whether an element is pulled: by an operator object as a value, by another object as a
subdocument, and by any other condition when it equals it. -/
def pulls (condition item : Json) : Except QueryFault Bool :=
  if Filter.isOperatorObject condition then Filter.holdsFor [some item] condition
  else if condition.isObject then
    if item.isObject then Filter.accepts item condition else .ok false
  else .ok (item.sameValue condition)

def unpulled (condition : Json) : List Json → Except QueryFault (List Json)
  | [] => .ok []
  | item :: rest => do
    let pulled ← pulls condition item
    let kept ← unpulled condition rest
    return if pulled then kept else item :: kept

def pullFrom (condition target : Json) : Except QueryFault Change :=
  match target with
  | .array items => do
    let kept ← unpulled condition items
    return if kept.length = items.length then .keep else .put (.array kept)
  | _ => .error .pullNotArray

/-- The elements that an argument of `$push` adds. -/
def pushed (argument : Json) : Except QueryFault (List Json) :=
  match argument.field? "$each" with
  | some (.array items) => .ok items
  | some _ => .error .eachNotArray
  | none => .ok [argument]

def pushOnto (argument target : Json) : Except QueryFault Change :=
  match target with
  | .array items => do return .put (.array (items ++ (← pushed argument)))
  | _ => .error .pushNotArray

def setTo (argument current : Json) : Change :=
  if current.identical argument then .keep else .put argument

def changeField (operator : UpdateOperator) (argument : Json) (current : Option Json) :
    Except QueryFault Change :=
  match operator, current with
  | .set, some current => .ok (setTo argument current)
  | .set, none => .ok (.put argument)
  | .unset, some _ => .ok .remove
  | .unset, none => .ok .keep
  | .pull, some current => pullFrom argument current
  | .pull, none => .ok .keep
  | .push, some current => pushOnto argument current
  | .push, none => pushOnto argument (.array [])

/-- The change to an element of an array. Elements are not removed by `$unset` but become null. -/
def changeElement (operator : UpdateOperator) (argument current : Json) :
    Except QueryFault Change :=
  match operator with
  | .set => .ok (setTo argument current)
  | .unset => .ok (setTo .null current)
  | .pull => pullFrom argument current
  | .push => pushOnto argument current

/-- The part of a text before its first dot, and the part after it if there is a dot. -/
def splitHead (text : String) : String × Option String :=
  match splitPath text with
  | [] => (text, none)
  | [only] => (only, none)
  | head :: rest => (head, some (joinPath rest))

/-- Whether an element satisfies the conditions of one array filter that are bound to an identifier.
The first result tells whether there was any. -/
def conditionsHold (identifier : String) (element : Json) (bound : Bool) :
    List (String × Json) → Except QueryFault (Bool × Bool)
  | [] => .ok (bound, true)
  | (name, condition) :: rest => do
    let (head, path) := splitHead name
    if head ≠ identifier then conditionsHold identifier element bound rest
    else
      let holds ←
        match path with
        | none => Filter.holdsFor [some element] condition
        | some path => Filter.acceptsFields element [(path, condition)]
      if holds then conditionsHold identifier element true rest else return (true, false)

/-- Whether an element satisfies every array filter that is bound to an identifier, of which there
has to be one. -/
def selected (identifier : String) (element : Json) (bound : Bool) :
    List Json → Except QueryFault Bool
  | [] => if bound then .ok true else .error (.unboundIdentifier identifier)
  | .object conditions :: rest => do
    let (bound, holds) ← conditionsHold identifier element bound conditions
    if holds then selected identifier element bound rest else return false
  | _ :: _ => .error .arrayFilterNotAnObject

inductive Positional where
  | everyElement
  | bound (identifier : String)
  | element (position : Nat)
deriving DecidableEq, Repr

/-- The meaning of a path segment that meets an array. -/
def Positional.ofSegment? (segment : String) : Option Positional :=
  match segment.toList with
  | ['$', '[', ']'] => some .everyElement
  | '$' :: '[' :: rest =>
    if rest.getLast? = some ']' then some (.bound (String.ofList rest.dropLast))
    else (index? segment).map .element
  | _ => (index? segment).map .element

def selection (arrayFilters : List Json) (segment : String) (items : List Json) :
    Except QueryFault (List Bool) :=
  match Positional.ofSegment? segment with
  | some .everyElement => .ok (items.map fun _ => true)
  | some (.bound identifier) => items.mapM fun item => selected identifier item false arrayFilters
  | some (.element position) => .ok (items.mapIdx fun index _ => index == position)
  | none => .error (.fieldInArray segment)

/-- Applies a step to the selected elements, and tells whether one of them changed. -/
def updateItems (step : Json → Except QueryFault (Json × Bool)) :
    List Json → List Bool → Except QueryFault (List Json × Bool)
  | item :: items, chosen :: selection => do
    let (item, changed) ← if chosen then step item else pure (item, false)
    let (items, others) ← updateItems step items selection
    return (item :: items, changed || others)
  | items, _ => .ok (items, false)

def putChange (name : String) (fields : List (String × Json)) : Change → Json × Bool
  | .keep => (.object fields, false)
  | .put value => (.object (putField name value fields), true)
  | .remove => (.object (removeField name fields), true)

def elementChange (item : Json) : Change → Json × Bool
  | .keep => (item, false)
  | .put value => (value, true)
  | .remove => (.null, true)

/-- Applies an operator at every target of a path, and tells whether anything changed. -/
def updateAt (arrayFilters : List Json) (operator : UpdateOperator) (argument : Json) :
    List String → Json → Except QueryFault (Json × Bool)
  | [], value => .ok (value, false)
  | segment :: rest, value =>
    let next (child : Json) : Except QueryFault (Json × Bool) :=
      updateAt arrayFilters operator argument rest child
    match value with
    | .object fields =>
      if rest.isEmpty then do
        return putChange segment fields
          (← changeField operator argument (lookupName segment fields))
      else
        match lookupName segment fields with
        | some child => do
          let (child, changed) ← next child
          return (.object (putField segment child fields), changed)
        | none =>
          if operator.creates then do
            let (child, changed) ← next (.object [])
            return (.object (putField segment child fields), changed)
          else
            .ok (.object fields, false)
    | .array items => do
      let selection ← selection arrayFilters segment items
      let step (item : Json) : Except QueryFault (Json × Bool) :=
        if rest.isEmpty then do
          return elementChange item (← changeElement operator argument item)
        else next item
      let (items, changed) ← updateItems step items selection
      return (.array items, changed)
    | value => .ok (value, false)

/-- Applies one operator to each of its paths in turn. -/
def applyPaths (arrayFilters : List Json) (name : String) (document : Json) (changed : Bool) :
    List (String × Json) → Except QueryFault (Json × Bool)
  | [] => .ok (document, changed)
  | (path, argument) :: rest =>
    match UpdateOperator.ofName? name with
    | none => .error (.unsupportedUpdate name)
    | some operator => do
      let (document, changedHere) ←
        updateAt arrayFilters operator argument (splitPath path) document
      applyPaths arrayFilters name document (changed || changedHere) rest

def applyOperators (arrayFilters : List Json) (document : Json) (changed : Bool) :
    List (String × Json) → Except QueryFault (Json × Bool)
  | [] => .ok (document, changed)
  | (name, .object paths) :: rest => do
    let (document, changed) ← applyPaths arrayFilters name document changed paths
    applyOperators arrayFilters document changed rest
  | (name, _) :: _ => .error (.pathsExpected name)

def apply (update : Json) (arrayFilters : List Json) (document : Json) :
    Except QueryFault (Json × Bool) :=
  match update with
  | .object operators => applyOperators arrayFilters document false operators
  | _ => .error .updateNotAnObject

end Update

end LinkedDocs
